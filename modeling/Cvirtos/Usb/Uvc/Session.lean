import Cvirtos.Usb.Uvc.CaptureRules
import Cvirtos.Usb.Uvc.Controls
import Cvirtos.Usb.Uvc.Stream

/-!
# Opening a camera

`UvcCamera::open` of `drivers/usb/uvc/session.rs`, with `get_configuration_descriptor` of
`dwc2/control.rs`: the configuration is read and parsed, the controls are set, the stream is started,
and one frame is thrown away.

* `opening` — the requests of an opening, in their order;
* `Arms` — the SETUP packets armed for requests, retries and refusals included;
* `captureFrame_silent` — a capture makes no request;
* `openCamera_requests` — **whatever the camera answers, the requests are the first ones of an
  opening**, and all of them once the camera is open.
-/

set_option autoImplicit false

namespace Cvirtos.Usb.Dwc2

open Cvirtos.Lib

variable {σ : Type}

def USB_DT_CONFIGURATION : UInt8 := 2

/-- `wTotalLength` of a configuration. -/
def totalLength (buf : List UInt8) : UInt16 :=
  (buf.getD 2 0).toUInt16 ||| (buf.getD 3 0).toUInt16 <<< 8

/-- `ControlEp::get_configuration_descriptor`: the buffer, with zeros after what has been read. -/
def ControlEp.getConfigurationDescriptor (m : Machine σ) (ep : ControlEp) (cfgIndex : UInt8) :
    Io σ (List UInt8) := do
  let hdr ← ControlEp.read m ep (StdRequest.getDescriptorConfiguration cfgIndex 9) 9
  if hdr.getD 1 0 ≠ USB_DT_CONFIGURATION then
    throw (.err (.protocol "not a configuration descriptor"))
  else
    let total := totalLength hdr
    if total.toNat > 4096 then
      throw (.err (.protocol "configuration descriptor too large (>4096)"))
    else
      let bytes ← ControlEp.read m ep (StdRequest.getDescriptorConfiguration cfgIndex total)
        total.toNat
      return bytes ++ List.replicate (4096 - total.toNat) 0

end Cvirtos.Usb.Dwc2

namespace Cvirtos.Usb.Uvc

open Cvirtos.Lib Cvirtos.Usb.Dwc2

variable {σ : Type}

/-- `UvcCamera`, with what its later requests need. -/
structure OpenCamera where
  controlEp : ControlEp
  sel : UvcStreamSelection
  entities : UvcControlEntities
  deriving DecidableEq, Repr

section

variable (checks : Bool) (m : Machine σ) (ep : ControlEp) (prefs : UvcPrefs)

/-- `UvcCamera::open` up to the stream. -/
def openStream : Io σ OpenCamera := do
  let cfgBuf ← ControlEp.getConfigurationDescriptor m ep 1
  let cfgTotal := (totalLength cfgBuf).toNat
  let cfg := cfgBuf.take (min cfgTotal cfgBuf.length)
  match parseUvcVideoStream checks cfg cfgTotal prefs, parseUvcControlEntities cfg cfgTotal with
  | .ok (.ok sel), .ok entities =>
    let entities := entities.getD ⟨0, none, 0, none, 0⟩
    -- a camera that refuses a setting keeps its own
    dropError (initControls (.ofMachine m ep) entities)
    let sel ← startStream m ep sel
    return ⟨ep, sel, entities⟩
  | .ok (.error e), _ => throw (.err e)
  | _, _ => throw .panic

/-- `UvcCamera::open`, with `LAST_EOF_FID` before and after the frame it throws away; `none` is a
capture that still runs. -/
def openCamera (lastEofFid : UInt8) (packets : Nat) : Io σ (Option (OpenCamera × UInt8)) := do
  let cam ← openStream checks m ep prefs
  match ← attempt (OnMachine.captureFrame m (cam.sel.camera ep.dev) lastEofFid packets) with
  | .ok r => return r.map fun (_, fid) => (cam, fid)
  | .error .panic => throw .panic
  | .error (.err _) => return some (cam, lastEofFid)

end

/-! ### The requests -/

/-- A request of an opening, and whether the opening goes on without it. -/
structure Step where
  request : SetupRequest
  optional : Bool
  deriving DecidableEq, Repr

/-- The requests for the configuration. -/
def configuring (total : UInt16) : List Step :=
  [⟨.getDescriptorConfiguration 1 9, false⟩, ⟨.getDescriptorConfiguration 1 total, false⟩]

/-- The requests that start a stream. -/
def starting (vs alt : UInt8) : List Step :=
  [⟨.setInterface 0 vs, true⟩,
    ⟨.setCurStreaming vs VS_PROBE_CONTROL (.ofNat UVC_PROBE_COMMIT_LEN), false⟩,
    ⟨.getMaxStreaming vs VS_PROBE_CONTROL (.ofNat UVC_PROBE_COMMIT_LEN), true⟩,
    ⟨.getCurStreaming vs VS_PROBE_CONTROL (.ofNat UVC_PROBE_COMMIT_LEN), false⟩,
    ⟨.setCurStreaming vs VS_COMMIT_CONTROL (.ofNat UVC_PROBE_COMMIT_LEN), false⟩,
    ⟨.setInterface alt vs, false⟩]

/-- The settings: each may be refused. -/
def setting (r : SetupRequest) : Step := ⟨r, true⟩

/-- The requests of an opening: the configuration twice, the controls, the stream. -/
def opening (total : UInt16) (settings : List SetupRequest) (vs alt : UInt8) : List Step :=
  configuring total ++ settings.map setting ++ starting vs alt

/-- The SETUP packets armed for requests, in their order: each once and again with every retry, an
optional one perhaps not at all. -/
inductive Arms : List Step → List (List UInt8) → Prop
  | nil : Arms [] []
  | snoc {rs : List Step} {log : List (List UInt8)} (step : Step) (n : Nat) (h : Arms rs log)
    (hleast : step.optional = true ∨ 1 ≤ n) (hn : n ≤ NAK_RETRIES + 1) :
    Arms (rs ++ [step]) (log ++ List.replicate n step.request.packet.toList)

/-- These requests have been made. -/
def Requested (rs : List Step) (s : Tapped σ) : Prop := Arms rs s.setups

/-- These are the first requests of an opening. -/
def Towards (rs : List Step) : Prop :=
  ∃ total ent settings vs alt, (∀ r ∈ settings, Offered ent r) ∧
    rs <+: opening total settings vs alt

theorem Towards.shorter {rs rs' : List Step} (h : Towards rs') (hp : rs <+: rs') : Towards rs := by
  obtain ⟨total, ent, settings, vs, alt, hoffered, hprefix⟩ := h
  exact ⟨total, ent, settings, vs, alt, hoffered, hp.trans hprefix⟩

theorem Towards.init {rs rs' : List Step} (h : Towards (rs ++ rs')) : Towards rs :=
  h.shorter (List.prefix_append _ _)

/-- The requests so far are the first ones of an opening. -/
def Underway (s : Tapped σ) : Prop := ∃ rs, Towards rs ∧ Requested rs s

/-- The requests so far are the opening of this camera. -/
def Opened (cam : OpenCamera) (s : Tapped σ) : Prop :=
  ∃ total settings, (∀ r ∈ settings, Offered cam.entities r) ∧
    Requested (opening total settings cam.sel.vsInterface cam.sel.altSetting) s

theorem Opened.underway {cam : OpenCamera} {s : Tapped σ} (h : Opened cam s) : Underway s := by
  obtain ⟨total, settings, hoffered, hs⟩ := h
  exact ⟨_, ⟨total, cam.entities, settings, _, _, hoffered, List.prefix_rfl⟩, hs⟩

variable {m : Machine σ} {ep : ControlEp} {α : Type} {rs rs' : List Step} {step : Step}

/-- A request that is made, or that need not be. -/
theorem Requested.next {log : List (List UInt8)} {least : Nat} {t : Tapped σ} (h : Arms rs log)
    (ht : Armed least log step.request.packet t) (hleast : step.optional = true ∨ 1 ≤ least) :
    Requested (rs ++ [step]) t := by
  obtain ⟨n, hmore, hn, ht⟩ := ht
  unfold Requested
  rw [show t.setups = _ from ht]
  exact h.snoc step n (hleast.imp_right fun hone => Nat.le_trans hone hmore) hn

/-- A transfer makes its request. -/
theorem triple_request (step : Step) {x : Io (Tapped σ) α} (hrs : rs ++ [step] = rs') (h : Towards rs')
    (hx : ∀ log, Triple (Logged log) x (fun _ => Armed 1 log step.request.packet)
      (fun _ => Armed 0 log step.request.packet)) :
    Triple (Requested rs) x (fun _ => Requested rs') (fun _ => Underway) := by
  subst hrs
  intro s hs
  refine triple_weaken (hx s.setups) (fun _ h => h) (fun _ t ht => ?_) (fun _ t ht => ?_) s rfl
  · exact Requested.next hs ht (.inr (Nat.le_refl 1))
  · obtain ⟨n, -, hn, ht⟩ := ht
    cases n with
    | zero =>
      -- the channel was busy at the first attempt
      refine ⟨rs, h.init, ?_⟩
      unfold Requested
      rw [show t.setups = _ from ht, List.replicate_zero, List.append_nil]
      exact hs
    | succ n =>
      have harmed : Armed 1 s.setups step.request.packet t := ⟨n + 1, Nat.le_add_left 1 n, hn, ht⟩
      exact ⟨_, h, Requested.next hs harmed (.inr (Nat.le_refl 1))⟩

/-- A transfer that may be refused makes its request or not. -/
theorem triple_option (step : Step) {x : Io (Tapped σ) α} (hrs : rs ++ [step] = rs')
    (hoptional : step.optional = true)
    (hx : ∀ log, Triple (Logged log) x (fun _ => Armed 1 log step.request.packet)
      (fun _ => Armed 0 log step.request.packet)) :
    Triple (Requested rs) x (fun _ => Requested rs') (fun _ => Requested rs') := by
  subst hrs
  intro s hs
  exact triple_weaken (hx s.setups) (fun _ h => h)
    (fun _ t ht => Requested.next hs ht (.inl hoptional))
    (fun _ t ht => Requested.next hs ht (.inl hoptional)) s rfl

theorem triple_dropError {τ : Type} {P Q : τ → Prop} {E : Dwc2.Stop → τ → Prop} {x : Io τ α}
    (hx : Triple P x (fun _ => Q) (fun _ => Q)) (hE : ∀ e s, Q s → E e s) :
    Triple P (dropError x) (fun _ => Q) E := by
  refine triple_bind (triple_attempt hx) fun res => ?_
  rcases res with (e | _) | a
  · exact triple_pure fun _ h => h
  · exact triple_throw fun _ h => hE _ _ h
  · exact triple_pure fun _ h => h

/-! ### The parts of an opening -/

theorem towards_configuring (total : UInt16) : Towards (configuring total) :=
  ⟨total, ⟨0, none, 0, none, 0⟩, [], 0, 0, fun _ hr => absurd hr List.not_mem_nil,
    List.prefix_append _ _⟩

theorem triple_getConfigurationDescriptor :
    Triple (Requested []) (ControlEp.getConfigurationDescriptor m.tap ep 1)
      (fun _ s => ∃ total, Requested (configuring total) s) (fun _ => Underway) := by
  have hfirst : ∀ s : Tapped σ,
      Requested [⟨.getDescriptorConfiguration 1 9, false⟩] s → Underway s :=
    fun s h => ⟨_, (towards_configuring 0).init, h⟩
  refine triple_bind (triple_request ⟨.getDescriptorConfiguration 1 9, false⟩
    rfl (towards_configuring 0).init fun _ => triple_read_tap _ _) fun hdr => ?_
  refine triple_ite (fun _ => triple_throw hfirst) fun _ => ?_
  refine triple_ite (fun _ => triple_throw hfirst) fun _ => ?_
  refine triple_bind (triple_request
    ⟨.getDescriptorConfiguration 1 (totalLength hdr), false⟩
    rfl (towards_configuring _) fun _ => triple_read_tap _ _) fun _ => ?_
  exact triple_pure fun _ h => ⟨_, h⟩

/-- The settings, after `rs`: requests that the camera offers. -/
def SettingsAfter (ent : UvcControlEntities) (rs : List Step) (s : Tapped σ) : Prop :=
  ∃ settings : List SetupRequest, (∀ r ∈ settings, Offered ent r) ∧
    Requested (rs ++ settings.map setting) s

theorem triple_settings {ent : UvcControlEntities}
    (hopen : ∀ settings : List SetupRequest, (∀ r ∈ settings, Offered ent r) →
      Towards (rs ++ settings.map setting)) :
    Triple (Requested rs) (dropError (initControls (.ofMachine m.tap ep) ent))
      (fun _ => SettingsAfter ent rs) (fun _ => Underway) := by
  have hkeeps : (ControlPipe.ofMachine m.tap ep).Keeps (SettingsAfter ent rs) (Offered ent) := by
    refine keeps_logged (I := fun log => ∃ settings : List SetupRequest,
      (∀ r ∈ settings, Offered ent r) ∧
      Arms (rs ++ settings.map setting) log) ?_ m ep
    rintro _ r n hr hn ⟨settings, hoffered, harms⟩
    refine ⟨settings ++ [r], fun q hq => ?_, ?_⟩
    · rcases List.mem_append.mp hq with hq | hq
      · exact hoffered q hq
      · exact List.mem_singleton.mp hq ▸ hr
    · rw [List.map_append, ← List.append_assoc]
      exact harms.snoc (setting r) n (.inl rfl) hn
  refine triple_pre (triple_dropError (Q := SettingsAfter ent rs)
    (triple_error (triple_initControls hkeeps) fun _ _ h => h.2) ?_) ?_
  · exact fun _ s ⟨settings, hoffered, h⟩ => ⟨_, hopen settings hoffered, h⟩
  · intro s h
    refine ⟨[], fun r hr => absurd hr List.not_mem_nil, ?_⟩
    rw [List.map_nil, List.append_nil]
    exact h

theorem starting_next {vs alt : UInt8} {k : Nat} (rs : List Step)
    (h : (starting vs alt)[k]? = some step) :
    rs ++ (starting vs alt).take k ++ [step] = rs ++ (starting vs alt).take (k + 1) := by
  rw [List.append_assoc, List.take_add_one, h]
  rfl

/-- The first three of them, for any proposal. -/
theorem triple_proposal {vs : UInt8} {len : Nat} (data : List UInt8)
    (hopen : ∀ k, Towards (rs ++ (starting vs 0).take k)) :
    Triple (Requested rs)
      (dropError (Dwc2.ControlEp.setInterface m.tap ep 0 vs) >>= fun _ =>
        Dwc2.ControlEp.write m.tap ep (UvcRequest.setCurStreaming vs VS_PROBE_CONTROL
          (.ofNat UVC_PROBE_COMMIT_LEN)) data >>= fun _ =>
        dropError (Dwc2.ControlEp.read m.tap ep (UvcRequest.getMaxStreaming vs VS_PROBE_CONTROL
          (.ofNat UVC_PROBE_COMMIT_LEN)) len))
      (fun _ => Requested (rs ++ (starting vs 0).take 3)) (fun _ => Underway) := by
  refine triple_bind (Q := fun _ => Requested (rs ++ (starting vs 0).take 1)) ?_ fun _ =>
    triple_bind (Q := fun _ => Requested (rs ++ (starting vs 0).take 2)) ?_ fun _ => ?_
  · exact triple_dropError (triple_option ⟨.setInterface 0 vs, true⟩ rfl rfl
      fun _ => triple_writeNoData_tap _) fun _ _ h => ⟨_, hopen 1, h⟩
  · exact triple_request _ (starting_next rs rfl) (hopen 2) fun _ => triple_write_tap _ _
  · exact triple_dropError (triple_option ⟨.getMaxStreaming vs VS_PROBE_CONTROL
      (.ofNat UVC_PROBE_COMMIT_LEN), true⟩ (starting_next rs rfl) rfl
      fun _ => triple_read_tap _ _) fun _ _ h => ⟨_, hopen 3, h⟩

theorem triple_proposeStream_requests {sel : UvcStreamSelection}
    (hopen : ∀ k, Towards (rs ++ (starting sel.vsInterface 0).take k)) :
    Triple (Requested rs) (proposeStream m.tap ep sel)
      (fun _ => Requested (rs ++ (starting sel.vsInterface 0).take 3)) (fun _ => Underway) :=
  triple_proposal _ hopen

theorem triple_readProbe_request {sel : UvcStreamSelection}
    (hopen : Towards (rs ++ (starting sel.vsInterface 0).take 4)) :
    Triple (Requested (rs ++ (starting sel.vsInterface 0).take 3)) (readProbe m.tap ep sel)
      (fun _ => Requested (rs ++ (starting sel.vsInterface 0).take 4)) (fun _ => Underway) :=
  triple_request _ (starting_next rs rfl) hopen fun _ => triple_read_tap _ _

theorem triple_writeCommit_request {sel sel' : UvcStreamSelection} (payload : ProbeCommit)
    (hvs : sel'.vsInterface = sel.vsInterface)
    (hopen : Towards (rs ++ (starting sel.vsInterface 0).take 5)) :
    Triple (Requested (rs ++ (starting sel.vsInterface 0).take 4))
      (writeCommit m.tap ep sel' payload)
      (fun _ => Requested (rs ++ (starting sel.vsInterface 0).take 5)) (fun _ => Underway) := by
  rw [← hvs] at hopen ⊢
  exact triple_request _ (starting_next rs rfl) hopen fun _ => triple_write_tap _ _

/-- **The stream is started** by its six requests, in their order. -/
theorem triple_startStream_requests {sel : UvcStreamSelection}
    (hopen : ∀ alt, Towards (rs ++ starting sel.vsInterface alt)) :
    Triple (Requested rs) (startStream m.tap ep sel)
      (fun sel' s => sel'.vsInterface = sel.vsInterface ∧
        Requested (rs ++ starting sel.vsInterface sel'.altSetting) s)
      (fun _ => Underway) := by
  have hfirst : ∀ k, Towards (rs ++ (starting sel.vsInterface 0).take k) := fun k =>
    (hopen 0).shorter ((List.prefix_append_right_inj rs).mpr (List.take_prefix k _))
  refine triple_bind (triple_proposeStream_requests hfirst) fun _ => ?_
  refine triple_bind (triple_readProbe_request (hfirst 4)) fun bytes => ?_
  cases hsettle : sel.settle (.ofBytes bytes) with
  | error c => exact triple_throw fun s h => ⟨_, hfirst 4, h⟩
  | ok settled =>
    obtain ⟨sel', probe⟩ := settled
    have hvs : sel'.vsInterface = sel.vsInterface := by rw [(settle_agrees hsettle).frame]
    have hlast : rs ++ (starting sel.vsInterface 0).take 5 ++
        [⟨.setInterface sel'.altSetting sel'.vsInterface, false⟩] =
          rs ++ starting sel.vsInterface sel'.altSetting := by
      rw [hvs]
      exact List.append_assoc _ _ _
    refine triple_bind (triple_writeCommit_request probe hvs (hfirst 5)) fun _ => ?_
    refine triple_bind (triple_request _ hlast (hopen _) fun _ => triple_writeNoData_tap _) fun _ => ?_
    exact triple_pure fun _ h => ⟨hvs, h⟩

theorem triple_openStream (checks : Bool) (prefs : UvcPrefs) :
    Triple (Requested []) (openStream checks m.tap ep prefs) Opened (fun _ => Underway) := by
  refine triple_bind triple_getConfigurationDescriptor fun cfgBuf => ?_
  rintro s ⟨total, hs⟩
  have hopen : ∀ ent settings vs alt, (∀ r ∈ settings, Offered ent r) →
      Towards (opening total settings vs alt) := fun ent settings vs alt hoffered =>
    ⟨total, ent, settings, vs, alt, hoffered, List.prefix_rfl⟩
  have hconfig : Towards (configuring total) := towards_configuring total
  revert s
  change Triple (Requested (configuring total)) _ _ _
  dsimp only
  split
  · rename_i sel entities _ _
    refine triple_bind (triple_settings fun settings hoffered =>
      (hopen _ settings 0 0 hoffered).init) fun _ => ?_
    rintro s ⟨settings, hoffered, hs⟩
    refine (triple_bind (triple_startStream_requests fun alt => hopen _ settings _ alt hoffered)
      fun sel' => triple_pure fun t ht => ?_) s hs
    exact ⟨total, settings, hoffered, by rw [ht.1]; exact ht.2⟩
  · exact triple_throw fun _ h => ⟨_, hconfig, h⟩
  · exact triple_throw fun _ h => ⟨_, hconfig, h⟩

/-! ### The frame that is thrown away -/

/-- **A capture arms no SETUP packet.** -/
theorem captureFrame_silent (cam : UvcCamera) (lastEofFid : UInt8) (packets : Nat)
    (log : List (List UInt8)) :
    Kept (Logged log) (OnMachine.captureFrame m.tap cam lastEofFid packets) :=
  CaptureRules.captureFrame (.of_keeps (tap_keeps m log) fun h => nomatch h) lastEofFid packets

/-! ### The whole opening -/

/-- What makes no request keeps what the packets say. -/
theorem kept_setups {x : Io (Tapped σ) α} (hx : ∀ log, Kept (Logged log) x)
    (I : List (List UInt8) → Prop) : Kept (fun s => I s.setups) x := by
  intro s hs
  have hsame : ∀ t : Tapped σ, Logged s.setups t → I t.setups := by
    intro t ht
    rw [show t.setups = s.setups from ht]
    exact hs
  exact triple_weaken (hx s.setups) (fun _ h => h) (fun _ t ht => hsame t ht)
    (fun _ t ht => hsame t ht) s rfl

theorem triple_openCamera (checks : Bool) (prefs : UvcPrefs) (lastEofFid : UInt8) (packets : Nat) :
    Triple (Requested []) (openCamera checks m.tap ep prefs lastEofFid packets)
      (fun res s => Underway s ∧ ∀ cam fid, res = some (cam, fid) → Opened cam s)
      (fun _ => Underway) := by
  refine triple_bind (triple_openStream checks prefs) fun cam => ?_
  have hcapture : Triple (Opened cam)
      (attempt (OnMachine.captureFrame m.tap (cam.sel.camera ep.dev) lastEofFid packets))
      (fun _ => Opened cam) (fun _ : Dwc2.Stop => Underway) :=
    triple_attempt_both (kept_setups (captureFrame_silent _ _ _) fun log => ∃ total settings,
      (∀ r ∈ settings, Offered cam.entities r) ∧
        Arms (opening total settings cam.sel.vsInterface cam.sel.altSetting) log)
  have hopened : ∀ (fid : UInt8) (s : Tapped σ), Opened cam s →
      Underway s ∧ ∀ cam' fid', some (cam, fid) = some (cam', fid') → Opened cam' s := by
    intro fid s h
    refine ⟨h.underway, fun cam' fid' heq => ?_⟩
    cases heq
    exact h
  -- the camera is open whether or not a frame came
  refine triple_bind hcapture fun r => ?_
  rcases r with (e | _) | r
  · exact triple_pure fun s h => hopened lastEofFid s h
  · exact triple_throw fun s h => h.underway
  · refine triple_pure fun s h => ?_
    cases r with
    | none => exact ⟨h.underway, fun _ _ heq => nomatch heq⟩
    | some r => exact hopened r.2 s h

/-- **Whatever the camera answers, the requests are the first ones of an opening**, and all of them,
for the camera's own interface, controls and alternate, once the camera is open: the SETUP packets that
channels are armed with are theirs, each as often as it is tried. -/
theorem openCamera_requests (checks : Bool) (m : Machine σ) (ep : ControlEp) (prefs : UvcPrefs)
    (lastEofFid : UInt8) (packets : Nat) (s : σ) :
    Underway (endState ((openCamera checks m.tap ep prefs lastEofFid packets).run (.start s))) ∧
      ∀ cam fid t, (openCamera checks m.tap ep prefs lastEofFid packets).run (.start s) =
        .ok (some (cam, fid)) t →
          ∃ total settings, (∀ r ∈ settings, Offered cam.entities r) ∧
            Arms (opening total settings cam.sel.vsInterface cam.sel.altSetting) t.setups := by
  have hrun : Triple _ (openCamera checks m.tap ep prefs lastEofFid packets) _ _ :=
    triple_openCamera checks prefs lastEofFid packets
  have hstart : Requested [] (Tapped.start s) := .nil
  refine ⟨triple_endState (triple_post hrun fun _ _ h => h.1) hstart, fun cam fid t ht => ?_⟩
  exact (hrun.ok hstart ht).2 cam fid rfl

end Cvirtos.Usb.Uvc
