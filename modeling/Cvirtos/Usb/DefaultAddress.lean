import Cvirtos.Usb.EnumerationTree

/-!
# Devices at the default address

A device that has been reset answers at address 0 until it has been given an address of its own, so
the walk must not reset a second device before that.

* `WalkEvent.Strands` — a port request fails and leaves a device at the default address;
* `Holds` — until a request strands a device, nobody else is there when one is asked for at address 0;
* `enumerateChild_holds` — a port that is given up leaves no device there, but for such a request;
* `enumerateBus_oneDefault` — **up to the first such request no two devices are at the default
  address**;
* `strandedPort_twoDefault` — after one, two can be.
-/

set_option autoImplicit false

namespace Cvirtos.Usb

open Cvirtos.Lib

section

variable (t : Topology)

/-- No device is at the default address. -/
def NoDefault (st : Path → DevState) : Prop := ∀ x ∈ t.devices, st x.1 ≠ .default

/-- No device but the one at `q` is at the default address. -/
def OnlyDefault (q : Path) (st : Path → DevState) : Prop :=
  ∀ x ∈ t.devices, st x.1 = .default → x.1 = q

/-- No two devices are at the default address. -/
def AtMostOneDefault (st : Path → DevState) : Prop :=
  ∀ x ∈ t.devices, ∀ y ∈ t.devices, st x.1 = .default → st y.1 = .default → x.1 = y.1

/-- The requests about a port of a hub. -/
def Request.isPort : Request → Bool
  | .getPortStatus _ => true
  | .setPortFeature _ _ => true
  | .clearPortFeature _ _ => true
  | _ => false

/-- The requests of `probe_default_addr` and `set_address`. -/
def Request.toDefault : Request → Bool
  | .getDescriptorDevice => true
  | .setAddress _ => true
  | _ => false

/-- A port request fails and leaves a device at the default address. -/
def WalkEvent.Strands : WalkEvent World → Prop
  | .request _ req _ after failed =>
    req.isPort = true ∧ failed = true ∧ ∃ x ∈ t.devices, after.state x.1 = .default
  | _ => False

/-- A request to the default address finds no two devices there. -/
def WalkEvent.Alone : WalkEvent World → Prop
  | .request _ req before _ _ => req.toDefault = true → AtMostOneDefault t before.state
  | _ => True

/-- No request has stranded a device. -/
def Clean (log : List (WalkEvent World)) : Prop := ∀ e ∈ log, ¬ e.Strands t

/-- Up to the first request that strands a device, each finds no two devices at the default
address. -/
def Guarded (log : List (WalkEvent World)) : Prop :=
  ∀ earlier e, earlier ++ [e] <+: log → Clean t earlier → e.Alone t

/-- **The invariant**: guarded so far, and the states are in `P` unless a device has been stranded. -/
structure Holds (P : (Path → DevState) → Prop) (s : St World) : Prop where
  pos : 1 ≤ s.nextAddr
  guarded : Guarded t s.log
  states : Clean t s.log → P s.bus.state

/-- What an enumeration that fails leaves behind: the soft signal means no device at the default
address. -/
structure Fails (e : Halt) (s : St World) : Prop where
  guarded : Guarded t s.log
  soft : e = .error .notPresent → Holds t (NoDefault t) s

variable {t} {P Q : (Path → DevState) → Prop}

theorem guarded_concat {log : List (WalkEvent World)} {e : WalkEvent World} (h : Guarded t log)
    (he : Clean t log → e.Alone t) : Guarded t (log ++ [e]) := by
  intro earlier e' hle hclean
  rcases List.prefix_concat_iff.mp hle with heq | hle
  · obtain ⟨rfl, hlast⟩ := List.append_inj' heq rfl
    cases hlast
    exact he hclean
  · exact h earlier e' hle hclean

theorem Holds.weaken {s : St World} (h : Holds t P s) (hP : ∀ st, P st → Q st) : Holds t Q s :=
  ⟨h.pos, h.guarded, fun hclean => hP _ (h.states hclean)⟩

/-- What is known of the states may be weakened before a program. -/
theorem triple_states {ε α : Type} {x : EStateM ε (St World) α} {R : α → St World → Prop}
    {E : ε → St World → Prop} (hx : Triple (Holds t Q) x R E) (hQ : ∀ st, P st → Q st) :
    Triple (Holds t P) x R E :=
  triple_pre hx fun _ h => h.weaken hQ

/-- An event that is no request leaves the invariant alone. -/
theorem Holds.note {s : St World} (h : Holds t P s) {e : WalkEvent World} (halone : e.Alone t) :
    Holds t P { s with log := s.log ++ [e] } := by
  refine ⟨h.pos, guarded_concat h.guarded fun _ => halone, fun hclean => h.states ?_⟩
  exact fun x hx => hclean x (List.mem_append_left _ hx)

theorem Holds.after {s : St World} (h : Holds t P s) {ep : ControlEp} {req : Request} {b : World}
    {failed : Bool} (halone : req.toDefault = true → ∀ st, P st → AtMostOneDefault t st)
    (hstates : P s.bus.state → ¬ (WalkEvent.request ep req s.bus b failed).Strands t → Q b.state) :
    Holds t Q (s.after ep req b failed) := by
  refine ⟨h.pos, guarded_concat h.guarded fun hclean hreq => halone hreq _ (h.states hclean),
    fun hclean => hstates (h.states ?_) (hclean _ ?_)⟩
  · exact fun x hx => hclean x (List.mem_append_left _ hx)
  · exact List.mem_append_right _ (List.mem_singleton_self _)

/-! ## Requests under faults -/

variable {faults : Nat → Fault} {ep : ControlEp} {req : Request}

theorem answer_error {d : Dev} {path : Path} {f : Fault} {st : Path → DevState} {m : Nat}
    {e : UsbError} (h : d.answer path f st m req = .error e) : e = .stall := by
  unfold Dev.answer at h
  split at h
  · cases h
  · cases h
  · split at h
    · cases h
    · cases h
      rfl
  · cases h
  · cases h
    rfl

theorem read_ok {f : Fault} {w : World} {m : Nat} {buf : Vector UInt8 m}
    (h : t.read f ep req m w = .ok buf) :
    ∃ path d, t.responder w.state ep.dev = some (path, d) ∧ d.answer path f w.state m req = .ok buf := by
  unfold Topology.read at h
  split at h
  · cases h
  · split at h
    · cases h
    · rename_i path d hresp
      exact ⟨path, d, hresp, h⟩

theorem read_error {f : Fault} {w : World} {m : Nat} {e : UsbError}
    (h : t.read f ep req m w = .error e) : e ≠ .notPresent := by
  unfold Topology.read at h
  split at h
  · rename_i e' hf
    cases h
    rintro rfl
    exact f.hard hf
  · split at h
    · cases h
      exact fun he => nomatch he
    · rw [answer_error h]
      exact fun he => nomatch he

theorem write_ok {f : Fault} {w w' : World} (h : t.write f ep req w = (.ok (), w')) :
    ∃ path d, t.responder w.state ep.dev = some (path, d) ∧ w' = d.effect path f w req := by
  unfold Topology.write at h
  split at h
  · cases h
  · rename_i path d hresp
    split at h
    · cases h
    · cases h
      exact ⟨path, d, hresp, rfl⟩

theorem probe_state {driver : DeviceDriver} {dev : UsbDevice} {r : Answer Unit} {w w' : World}
    (h : (treeBus t faults).probe driver dev w = (r, w')) : w'.state = w.state := by
  dsimp only [treeBus] at h
  split at h <;> cases h <;> rfl

theorem write_error {f : Fault} {w w' : World} {e : UsbError}
    (h : t.write f ep req w = (.error e, w')) : e ≠ .notPresent := by
  unfold Topology.write at h
  split at h
  · cases h
    exact fun he => nomatch he
  · split at h
    · rename_i hf
      cases h
      rintro rfl
      exact f.hard hf
    · cases h

/-- A request that fails, of a port, has left no device at the default address. -/
theorem not_strands {w w' : World} (h : ¬ (WalkEvent.request ep req w w' true).Strands t)
    (hreq : req.isPort = true) : NoDefault t w'.state :=
  fun x hx hst => h ⟨hreq, rfl, x, hx, hst⟩

/-- **A read** leaves the states alone. -/
theorem read_holds {m : Nat} {R : Vector UInt8 m → (Path → DevState) → Prop}
    (halone : req.toDefault = true → ∀ st, P st → AtMostOneDefault t st)
    (hok : ∀ f path d st buf, t.responder st ep.dev = some (path, d) →
      d.answer path f st m req = .ok buf → P st → R buf st) :
    Triple (Holds t P) (ep.read (treeBus t faults) req m) (fun buf => Holds t (R buf))
      (fun e s => e ≠ .error .notPresent ∧
        Holds t (fun st => P st ∧ (req.isPort = true → NoDefault t st)) s) := by
  refine triple_transfer (fun s buf b h ha => ?_) (fun s e b h ha => ?_) fun s b _ ha => nomatch ha
  · obtain ⟨hread, rfl⟩ := Prod.mk.inj ha
    obtain ⟨path, d, hresp, hans⟩ := read_ok (Option.some.inj hread)
    exact h.after halone fun hP _ => hok _ path d _ buf hresp hans hP
  · obtain ⟨hread, rfl⟩ := Prod.mk.inj ha
    refine ⟨fun he => read_error (Option.some.inj hread) (Halt.error.inj he), ?_⟩
    exact h.after halone fun hP hnot => ⟨hP, not_strands hnot⟩

/-- **A transfer without data** has its effect on the device that answers. -/
theorem write_holds (halone : req.toDefault = true → ∀ st, P st → AtMostOneDefault t st)
    (hok : ∀ f path d w, t.responder w.state ep.dev = some (path, d) → P w.state →
      Q (d.effect path f w req).state) :
    Triple (Holds t P) (ep.writeNoData (treeBus t faults) req) (fun _ => Holds t Q)
      (fun e s => e ≠ .error .notPresent ∧
        Holds t (fun st => req.isPort = true → NoDefault t st) s) := by
  refine triple_transfer (fun s a b h ha => ?_) (fun s e b h ha => ?_) fun s b _ ha => nomatch ha
  · obtain ⟨hdone, rfl⟩ := Prod.mk.inj ha
    have hwrite : t.write (faults s.bus.clock) ep req s.bus =
        (.ok (), (t.write (faults s.bus.clock) ep req s.bus).2) := Prod.ext (Option.some.inj hdone) rfl
    obtain ⟨path, d, hresp, heff⟩ := write_ok hwrite
    refine h.after halone fun hP _ => ?_
    show Q (t.write (faults s.bus.clock) ep req s.bus).2.state
    rw [heff]
    exact hok _ path d s.bus hresp hP
  · obtain ⟨hfail, rfl⟩ := Prod.mk.inj ha
    have hwrite : t.write (faults s.bus.clock) ep req s.bus =
        (.error e, (t.write (faults s.bus.clock) ep req s.bus).2) := Prod.ext (Option.some.inj hfail) rfl
    refine ⟨fun he => write_error hwrite (Halt.error.inj he), ?_⟩
    exact h.after halone fun _ hnot => not_strands hnot

theorem Request.isPort_toDefault {c : Prop} (h : req.isPort = true) (h' : req.toDefault = true) :
    c := by
  cases req <;> simp_all [Request.isPort, Request.toDefault]

/-- **A port request without data**: when it fails, no device is at the default address. -/
theorem portWrite_holds (hreq : req.isPort = true)
    (hok : ∀ f path d w, t.responder w.state ep.dev = some (path, d) → P w.state →
      Q (d.effect path f w req).state) :
    Triple (Holds t P) (ep.writeNoData (treeBus t faults) req) (fun _ => Holds t Q)
      (fun _ => Holds t (NoDefault t)) := by
  refine triple_error (write_holds (Request.isPort_toDefault hreq) hok) ?_
  rintro e s ⟨-, h⟩
  exact h.weaken fun st hst => hst hreq

/-! ## Ports under faults -/

/-- The port has just been reset: nobody but the device behind it is at the default address. -/
def JustReset (t : Topology) (hub : Hub) (port : Nat) (st : Path → DevState) : Prop :=
  ∃ q, Serves t st hub port q ∧ OnlyDefault t q st

variable {hub : Hub} {port : Nat}

theorem onlyDefault_update {q : Path} {st : Path → DevState} {x : DevState}
    (h : NoDefault t st) : OnlyDefault t q (Function.update st q x) := by
  intro y hy hdef
  by_contra hne
  rw [Function.update_of_ne hne] at hdef
  exact h y hy hdef

theorem OnlyDefault.atMostOne {q : Path} {st : Path → DevState} (h : OnlyDefault t q st) :
    AtMostOneDefault t st :=
  fun x hx y hy hx' hy' => (h x hx hx').trans (h y hy hy').symm

/-- A port that reports no `ENABLE` has no device at the default address. -/
theorem Reports.noDefault {q : Path} {st : Path → DevState} {w0 : UInt16}
    (hrep : Reports w0 (st q) (t.at q)) (honly : OnlyDefault t q st) (hena : w0 &&& W0_ENABLE = 0) :
    NoDefault t st := by
  rintro ⟨p, d⟩ hx hdef
  obtain rfl : p = q := honly _ hx hdef
  rcases hrep.enable.mp hena with hnone | hatt
  · rw [(mem_devices t p d).mp hx] at hnone
    cases hnone
  · rw [hatt] at hdef
    cases hdef

/-- The read of a port's status keeps what is known of the states. -/
theorem status_holds (port : Nat) :
    Triple (Holds t P) (hub.portStatusW0 (treeBus t faults) port)
      (fun w0 => Holds t fun st => P st ∧
        ∀ q, Serves t st hub port q → Reports w0 (st q) (t.at q))
      (fun _ => Holds t fun st => P st ∧ NoDefault t st) := by
  cases hub with
  | root =>
    intro s hs
    have hrun : (Hub.root.portStatusW0 (treeBus t faults) port).run s =
        .ok (hprt0Word (t.hprt0 s.bus)) s := rfl
    rw [hrun]
    refine ⟨hs.pos, hs.guarded, fun hclean => ⟨hs.states hclean, fun q hq => ?_⟩⟩
    cases hq
    exact reports_hprt0 s.bus
  | device hub =>
    refine triple_bind (Q := fun buf : Vector UInt8 4 => Holds t fun st => P st ∧
      ∀ q, Serves t st (.device hub) port q →
        Reports (buf[0].toUInt16 ||| buf[1].toUInt16 <<< 8) (st q) (t.at q))
      (triple_error (read_holds (by simp [Request.toDefault]) ?_) ?_)
      fun buf => triple_pure fun _ h => h
    · intro f path d st buf hresp hans hP
      refine ⟨hP, fun q hq => ?_⟩
      cases hq with
      | @device _ path' d' _ hresp' =>
        obtain ⟨rfl, rfl⟩ := Prod.mk.inj (Option.some.inj (hresp'.symm.trans hresp))
        have hbuf : bytes (portStatus f.extra (st (path' ++ [port])) (d'.child port)) 4 = buf :=
          Except.ok.inj hans
        rw [← hbuf, t.at_child (responder_at hresp)]
        exact reports_portStatus _ _ _
    · rintro e s ⟨-, h⟩
      exact h.weaken fun st hst => ⟨hst.1, hst.2 rfl⟩

theorem power_holds (port : Nat) :
    Triple (Holds t (NoDefault t)) (hub.portPower (treeBus t faults) port)
      (fun _ => Holds t (NoDefault t)) (fun _ => Holds t (NoDefault t)) := by
  cases hub with
  | root => exact fun s hs => hs
  | device hub => exact portWrite_holds rfl fun f path d w hresp hP => hP

theorem clearConnection_holds (port : Nat) :
    Triple (Holds t (NoDefault t)) (hub.clearConnectionChange (treeBus t faults) port)
      (fun _ => Holds t (NoDefault t)) (fun _ => Holds t (NoDefault t)) := by
  cases hub with
  | root =>
    intro s hs
    cases t <;> exact hs
  | device hub => exact portWrite_holds rfl fun f path d w hresp hP => hP

/-- A reset brings at most the device behind the port to the default address. -/
theorem reset_holds (port : Nat) (haddr : hub.Addressed) :
    Triple (Holds t (NoDefault t)) (hub.resetPort (treeBus t faults) port)
      (fun _ => Holds t (JustReset t hub port)) (fun _ => Holds t (NoDefault t)) := by
  have hup : ∀ up : Bool, ∀ addr,
      (if up then DevState.default else .attached).answers addr = true → addr = 0 := by
    intro up addr
    cases up <;> simp [DevState.answers]
  cases hub with
  | root =>
    intro s hs
    refine ⟨hs.pos, hs.guarded, fun hclean => ⟨[], .root port, ?_⟩⟩
    cases t with
    | none =>
      intro x hx
      cases hx
    | some root =>
      show OnlyDefault _ [] (s.bus.set [] _).state
      rw [World.set_state]
      exact onlyDefault_update (hs.states hclean)
  | device hub =>
    refine portWrite_holds rfl fun f path d w hresp hP => ?_
    have hserves : Serves t w.state (.device hub) port (path ++ [port]) := .device port hresp
    refine ⟨path ++ [port], ?_⟩
    cases hchild : d.child port with
    | none =>
      have heff : d.effect path f w (.setPortFeature port .reset) = w := by
        unfold Dev.effect
        simp only [hchild]
      rw [heff]
      exact ⟨hserves, fun x hx hdef => absurd hdef (hP x hx)⟩
    | some c =>
      have heff : (d.effect path f w (.setPortFeature port .reset)).state =
          Function.update w.state (path ++ [port]) (if f.comesUp then .default else .attached) := by
        unfold Dev.effect
        simp only [hchild]
        exact w.set_state _ _
      rw [heff]
      exact ⟨serves_reset hserves haddr (hup f.comesUp), onlyDefault_update hP⟩

theorem clearReset_holds (port : Nat) :
    Triple (Holds t (JustReset t hub port)) (hub.clearResetChange (treeBus t faults) port)
      (fun _ => Holds t (JustReset t hub port)) (fun _ => Holds t (NoDefault t)) := by
  cases hub with
  | root => exact triple_pure fun _ hs => hs
  | device hub => exact portWrite_holds rfl fun f path d w hresp hP => hP

/-! ## The device behind a port -/

theorem takeAddr_holds :
    Triple (Holds t P) takeAddr (fun addr s => addr ≠ 0 ∧ Holds t P s)
      (fun e s => e ≠ .error .notPresent ∧ Holds t P s) := by
  intro s hs
  have hpos := hs.pos
  rw [takeAddr_run]
  by_cases hfull : s.nextAddr ≥ MAX_USB_ADDR
  · rw [if_pos hfull]
    exact ⟨(fun he => nomatch he), hs⟩
  · rw [if_neg hfull]
    refine ⟨Nat.ne_of_gt hpos, ?_, hs.guarded, hs.states⟩
    show 1 ≤ min (s.nextAddr + 1) 255
    omega

/-- `SET_ADDRESS` takes every device away from the default address. -/
theorem setAddress_holds (addr mps : Nat) :
    Triple (Holds t (AtMostOneDefault t)) ((ControlEp.new mps).setAddress (treeBus t faults) addr)
      (fun ep s => ep.dev = addr ∧ Holds t (NoDefault t) s)
      (fun e s => e ≠ .error .notPresent ∧ Guarded t s.log) := by
  unfold ControlEp.setAddress
  rw [if_neg (by simp [ControlEp.new])]
  refine triple_bind (triple_error (write_holds (fun _ _ h => h) (Q := NoDefault t) ?_)
    fun e s h => ⟨h.1, h.2.guarded⟩) fun _ => triple_pure fun s hs => ⟨rfl, hs⟩
  intro f path d w hresp hP x hx hdef
  have hstate : (d.effect path f w (.setAddress addr)).state x.1 =
      if w.state x.1 = .default then .addressed addr else w.state x.1 := rfl
  rw [hstate] at hdef
  split at hdef
  · cases hdef
  · contradiction

theorem enumerate_holds (speed : PortSpeed) :
    Triple (Holds t (AtMostOneDefault t)) (UsbDevice.enumerate (treeBus t faults) speed)
      (fun dev s => dev.controlEp.dev ≠ 0 ∧ Holds t (NoDefault t) s)
      (fun e s => e ≠ .error .notPresent ∧ Guarded t s.log) := by
  have hhard : ∀ {R : (Path → DevState) → Prop} (e : Halt) (s : St World),
      e ≠ .error .notPresent ∧ Holds t R s → e ≠ .error .notPresent ∧ Guarded t s.log :=
    fun e s h => ⟨h.1, h.2.guarded⟩
  unfold UsbDevice.enumerate
  refine triple_bind (Q := fun _ => Holds t (AtMostOneDefault t)) ?_ fun id => ?_
  · refine triple_bind (triple_error (read_holds (R := fun _ => AtMostOneDefault t)
      (fun _ _ h => h) ?_) hhard) fun _ => triple_pure fun _ h => h
    exact fun f path d st buf hresp hans hP => hP
  refine triple_bind (triple_error takeAddr_holds hhard)
    fun addr => triple_fact fun haddr => ?_
  refine triple_bind (setAddress_holds addr id.mps) fun ep => triple_fact fun hep => ?_
  refine triple_bind (triple_error (write_holds (Q := NoDefault t) (by simp [Request.toDefault])
    fun f path d w hresp hP => hP) hhard) fun _ => ?_
  refine triple_bind (Q := fun _ => Holds t (NoDefault t)) ?_ fun class? => ?_
  · refine triple_post (triple_tryOp (triple_bind (read_holds (R := fun _ => NoDefault t)
      (by simp [Request.toDefault]) fun f path d st buf hresp hans hP => hP) fun buf =>
        triple_pure (Q := fun _ => Holds t (NoDefault t)) fun _ h => h) (hhard _)) ?_
    intro r s hr
    cases r with
    | ok c => exact hr
    | error e => exact hr.2.weaken fun st hst => hst.1
  refine triple_bind (Q := fun _ => Holds t (NoDefault t)) ?_
    fun _ => triple_pure fun s hs => ⟨hep ▸ haddr, hs⟩
  exact fun s hs => hs.note trivial

/-- **A port that is given up** has no device at the default address, but for a request that strands
it. -/
theorem enumerateChild_holds (port : Nat) (haddr : hub.Addressed) :
    Triple (Holds t (NoDefault t)) (hub.enumerateChild (treeBus t faults) port)
      (fun dev s => dev.controlEp.dev ≠ 0 ∧ Holds t (NoDefault t) s) (Fails t) := by
  have hsoft : Triple (Holds t (NoDefault t)) (failWith .notPresent : Op World UsbDevice)
      (fun dev s => dev.controlEp.dev ≠ 0 ∧ Holds t (NoDefault t) s) (Fails t) :=
    triple_throw fun s hs => ⟨hs.guarded, fun _ => hs⟩
  have hstuck : ∀ {R : (Path → DevState) → Prop} (s : St World), Holds t R s → Fails t .stuck s :=
    fun s hs => ⟨hs.guarded, fun he => nomatch he⟩
  refine triple_bind (triple_tryOp (status_holds port) hstuck) fun w0 => ?_
  cases w0 with
  | error e => exact triple_states hsoft fun st hst => hst.2
  | ok w0 =>
    refine triple_states (Q := NoDefault t) ?_ fun st hst => hst.1
    refine triple_ite (fun _ => hsoft) fun _ => ?_
    refine triple_bind (triple_tryOp (triple_bind (clearConnection_holds port) fun _ =>
      triple_bind (reset_holds port haddr) fun _ => clearReset_holds port) hstuck) fun reset => ?_
    cases reset with
    | error e => exact hsoft
    | ok u =>
      refine triple_bind (triple_tryOp (status_holds port) hstuck) fun after => ?_
      cases after with
      | error e => exact triple_states hsoft fun st hst => hst.2
      | ok after =>
        refine triple_ite (fun hena => ?_) fun hena => ?_
        · refine triple_states hsoft ?_
          rintro st ⟨⟨q, hserves, honly⟩, hrep⟩
          exact (hrep q hserves).noDefault honly hena
        · refine triple_error (triple_states (P := fun st => JustReset t hub port st ∧ _)
            (enumerate_holds (.fromStatus after)) ?_) fun e s h => ⟨h.2, fun he => absurd he h.1⟩
          rintro st ⟨⟨q, hserves, honly⟩, -⟩
          exact honly.atMostOne

theorem powerPort_holds (port : Nat) :
    Triple (Holds t (NoDefault t)) (hub.powerPort (treeBus t faults) port)
      (fun _ => Holds t (NoDefault t)) (fun _ => Holds t (NoDefault t)) := by
  have hpower : Triple (Holds t (NoDefault t)) (do
      let _ ← tryOp (hub.portPower (treeBus t faults) port)
      return ()) (fun _ => Holds t (NoDefault t)) (fun _ => Holds t (NoDefault t)) := by
    refine triple_bind (triple_tryOp (power_holds port) fun _ hs => hs) fun r => ?_
    cases r <;> exact triple_pure fun _ h => h
  refine triple_bind (triple_tryOp (status_holds port) fun s hs => hs.weaken fun _ h => h.1) fun w0 => ?_
  cases w0 with
  | error e => exact triple_states hpower fun st hst => hst.2
  | ok w0 =>
    refine triple_states (Q := NoDefault t) ?_ fun st hst => hst.1
    exact triple_ite (fun _ => triple_pure fun _ h => h) fun _ => hpower

/-! ## The walk -/

theorem deviceHub_holds (ep : ControlEp) :
    Triple (Holds t (NoDefault t)) (DeviceHub.new (treeBus t faults) ep)
      (fun hub s => hub.controlEp = ep ∧ Holds t (NoDefault t) s) (fun _ s => Guarded t s.log) := by
  refine triple_bind (triple_error (read_holds (R := fun _ => NoDefault t)
    (by simp [Request.toDefault]) fun f path d st buf hresp hans hP => hP)
    fun e s h => h.2.guarded) fun buf => ?_
  exact triple_ite (fun _ => triple_throw fun s hs => hs.guarded)
    fun _ => triple_pure fun s hs => ⟨rfl, hs⟩

/-- The walk below a hub, given what each dispatch does. -/
theorem walkSubtree_holds (haddr : hub.Addressed) {dispatch : UsbDevice → Walk World Unit}
    (hdispatch : ∀ dev : UsbDevice, dev.controlEp.dev ≠ 0 → Triple (Holds t (NoDefault t))
      (dispatch dev) (fun _ => Holds t (NoDefault t)) (fun _ s => Guarded t s.log)) :
    Triple (Holds t (NoDefault t)) (hub.walkSubtree (treeBus t faults) dispatch)
      (fun _ => Holds t (NoDefault t)) (fun _ s => Guarded t s.log) := by
  refine triple_bind (triple_mapError (triple_forCount (fun port => powerPort_holds port) _ _)
    fun e s h => h.guarded) fun _ => triple_forCount (fun port => ?_) _ _
  refine triple_bind (triple_attempt (enumerateChild_holds port haddr)) fun child => ?_
  cases child with
  | ok child => exact triple_fact fun hchild => hdispatch child hchild
  | error e =>
    have hhard : ∀ e : Halt, Triple (Fails t e) (throw (.halt e) : Walk World Unit)
        (fun _ => Holds t (NoDefault t)) (fun _ s => Guarded t s.log) :=
      fun e => triple_throw fun s h => h.guarded
    cases e with
    | stuck => exact hhard _
    | error e =>
      cases e with
      | notPresent => exact triple_pure fun s h => h.soft rfl
      | _ => exact hhard _

theorem probe_holds (driver : DeviceDriver) (dev : UsbDevice) :
    Triple (Holds t (NoDefault t)) (driver.probe (treeBus t faults) dev)
      (fun _ => Holds t (NoDefault t)) (fun _ s => Guarded t s.log) := by
  have hnote : ∀ s, Holds t (NoDefault t) s →
      Holds t (NoDefault t) { s with log := s.log ++ [.probed driver dev s.bus] } :=
    fun s h => h.note trivial
  refine triple_probe (fun s b h hb => ?_) (fun s e b h _ => (hnote s h).guarded)
    fun s b h _ => (hnote s h).guarded
  have hstate : b.state = s.bus.state := probe_state hb
  exact ⟨h.pos, (hnote s h).guarded, fun hclean => hstate ▸ (hnote s h).states hclean⟩

theorem dispatch_holds (k : Nat) (dev : UsbDevice) (hdev : dev.controlEp.dev ≠ 0) :
    Triple (Holds t (NoDefault t)) (UsbDevice.dispatch (treeBus t faults) k dev)
      (fun _ => Holds t (NoDefault t)) (fun _ s => Guarded t s.log) := by
  induction k generalizing dev with
  | zero => exact triple_throw fun s h => h.guarded
  | succ k ih =>
      have hlog : Triple (Holds t (NoDefault t)) (mapError Stop.halt (logEvent (.dispatched dev)))
          (fun _ => Holds t (NoDefault t)) (fun _ s => Guarded t s.log) :=
        triple_mapError (E := Never) (fun s h => h.note trivial) fun _ _ h => h.elim
      refine triple_bind hlog fun _ => triple_ite (fun _ => ?_) fun _ => ?_
      · refine triple_bind (triple_mapError (deviceHub_holds dev.controlEp) fun _ _ h => h)
          fun hub => triple_fact fun hep => ?_
        refine @walkSubtree_holds t faults (.device hub) ?_ _ ih
        show hub.controlEp.dev ≠ 0
        rw [hep]
        exact hdev
      · split
        · exact triple_mapError (probe_holds _ dev) fun _ _ h => h
        · exact triple_pure fun _ h => h

theorem waitConnect_holds (port polls : Nat) :
    Triple (Holds t (NoDefault t)) (hub.waitConnect (treeBus t faults) port polls)
      (fun _ => Holds t (NoDefault t)) (fun _ s => Guarded t s.log) := by
  induction polls with
  | zero =>
      refine triple_bind (triple_tryOp (status_holds port) fun _ hs => hs.guarded) fun w0 => ?_
      cases w0 with
      | error e => exact triple_states (Q := NoDefault t) (triple_pure fun _ h => h) fun _ h => h.2
      | ok w0 => exact triple_states (Q := NoDefault t) (triple_pure fun _ h => h) fun _ h => h.1
  | succ polls ih =>
      refine triple_bind (triple_tryOp (status_holds port) fun _ hs => hs.guarded) fun w0 => ?_
      cases w0 with
      | error e => exact triple_states ih fun _ h => h.2
      | ok w0 =>
          refine triple_states (Q := NoDefault t) ?_ fun _ h => h.1
          exact triple_ite (fun _ => triple_pure fun _ h => h) fun _ => ih

theorem enumerateBusFrom_holds (fuel : Nat) :
    Triple (Holds t (NoDefault t)) (enumerateBusFrom (treeBus t faults) fuel)
      (fun _ s => Guarded t s.log) (fun _ s => Guarded t s.log) := by
  refine triple_bind (triple_mapError (power_holds 1) fun e s h => h.guarded) fun _ => ?_
  refine triple_bind (triple_mapError (waitConnect_holds 1 _) fun e s h => h) fun connected => ?_
  refine triple_ite (fun _ => ?_) fun _ => triple_throw fun s h => h.guarded
  refine triple_bind (triple_mapError (enumerateChild_holds 1 trivial) fun e s h => h.guarded)
    fun child => triple_fact fun hchild => ?_
  exact triple_post (dispatch_holds fuel child hchild) fun _ s h => h.guarded

end

/-- The requests, devices and dispatches of a run on the tree under the faults. -/
def treeLog (t : Topology) (faults : Nat → Fault) (fuel : Nat) : List (WalkEvent World) :=
  (endState (enumerateBus (treeBus t faults) fuel World.init)).log

/-- **Up to the first request that strands a device, no request to the default address finds two
devices there.** -/
theorem enumerateBus_oneDefault (t : Topology) (faults : Nat → Fault) (fuel i : Nat)
    (hclean : ∀ x ∈ (treeLog t faults fuel).take i, ¬ x.Strands t) :
    ∀ e ∈ (treeLog t faults fuel).take (i + 1), e.Alone t := by
  have hstart : Holds t (NoDefault t) ⟨1, World.init, []⟩ := by
    refine ⟨Nat.le_refl 1, fun earlier e hle => ?_, fun _ x _ h => nomatch h⟩
    have hnil := hle.length_le
    simp at hnil
  have hguarded : Guarded t (treeLog t faults fuel) :=
    triple_endState (enumerateBusFrom_holds fuel) hstart
  intro e he
  obtain ⟨j, hj, rfl⟩ := List.getElem_of_mem he
  have hlen := hj
  rw [List.length_take] at hlen
  rw [List.getElem_take]
  refine hguarded ((treeLog t faults fuel).take j) _ ?_ fun x hx => hclean x ?_
  · rw [List.take_append_getElem]
    exact List.take_prefix _ _
  · exact List.take_subset_take_left _ (by omega) hx

instance (t : Topology) (st : Path → DevState) : Decidable (AtMostOneDefault t st) :=
  inferInstanceAs (Decidable (∀ x ∈ t.devices, ∀ y ∈ t.devices,
    st x.1 = .default → st y.1 = .default → x.1 = y.1))

instance (t : Topology) : (e : WalkEvent World) → Decidable (e.Strands t)
  | .request _ req _ after failed => inferInstanceAs (Decidable (req.isPort = true ∧ failed = true ∧
      ∃ x ∈ t.devices, after.state x.1 = .default))
  | .enumerated _ => inferInstanceAs (Decidable False)
  | .dispatched _ => inferInstanceAs (Decidable False)
  | .probed _ _ _ => inferInstanceAs (Decidable False)

instance (t : Topology) : (e : WalkEvent World) → Decidable (e.Alone t)
  | .request _ req before _ _ =>
    inferInstanceAs (Decidable (req.toDefault = true → AtMostOneDefault t before.state))
  | .enumerated _ => inferInstanceAs (Decidable True)
  | .dispatched _ => inferInstanceAs (Decidable True)
  | .probed _ _ _ => inferInstanceAs (Decidable True)

/-- Two cameras on a hub. -/
def cameraPair : Topology := some (hubWith (.occupied camera (.occupied camera .nil)))

/-- The request with the given number times out, and takes effect or not. -/
def failsOnce (n : Nat) (effect : Bool) (k : Nat) : Fault :=
  if k = n then ⟨some .timeout, by decide, effect, true, Vector.replicate 4 0⟩
  else .none (Vector.replicate 4 0)

/-- The theorem where the first port is given up before its reset, and the second probed. -/
theorem enumerateBus_oneDefault_harmless :
    16 < (treeLog cameraPair (failsOnce 9 true) 126).length ∧
      ∀ e ∈ (treeLog cameraPair (failsOnce 9 true) 126).take 25, e.Alone cameraPair :=
  ⟨by decide +kernel,
    enumerateBus_oneDefault cameraPair (failsOnce 9 true) 126 24 (by decide +kernel)⟩

/-- **Two devices at the default address**: the first port's `C_PORT_RESET` is not cleared, the port
given up, and the second reset and probed while the first camera answers at address 0 as well. -/
theorem strandedPort_twoDefault :
    ¬ ∀ e ∈ treeLog cameraPair (failsOnce 11 true) 126, e.Alone cameraPair := by
  decide +kernel

end Cvirtos.Usb
