import Cvirtos.Usb.Hub
import Cvirtos.Usb.Uvc.Stream

/-!
# SETUP packets

`drivers/usb/setup.rs`, the hub requests of `hub.rs` and `uvc/setup.rs`: every request the firmware
makes is eight bytes, put together by a function of its own.

* `SetupRequest.packet` — the functions, request by request;
* `decode` — a device's reading of eight bytes;
* `decode_eq_some_iff` — **a packet is read as the request it was made for**.
-/

set_option autoImplicit false

namespace Cvirtos.Usb

/-- `u16::to_le_bytes`. -/
def lo (v : UInt16) : UInt8 := v.toUInt8

def hi (v : UInt16) : UInt8 := (v >>> 8).toUInt8

/-- `u16::from_le_bytes`. -/
def half (l h : UInt8) : UInt16 := .ofNat (l.toNat + 256 * h.toNat)

@[simp] theorem half_lo_hi (v : UInt16) : half (lo v) (hi v) = v := by
  apply UInt16.toNat_inj.mp
  have hv := v.toNat_lt
  simp only [half, lo, hi, UInt16.toNat_ofNat', UInt16.toNat_toUInt8, UInt16.toNat_shiftRight,
    Nat.shiftRight_eq_div_pow]
  change (v.toNat % 256 + 256 * (v.toNat / 256 % 256)) % 65536 = v.toNat
  omega

theorem toNat_half (l h : UInt8) : (half l h).toNat = l.toNat + 256 * h.toNat := by
  have hl := l.toNat_lt
  have hh := h.toNat_lt
  exact Nat.mod_eq_of_lt (by omega)

@[simp] theorem lo_half (l h : UInt8) : lo (half l h) = l := by
  apply UInt8.toNat_inj.mp
  have hl := l.toNat_lt
  rw [lo, UInt16.toNat_toUInt8, toNat_half]
  omega

@[simp] theorem hi_half (l h : UInt8) : hi (half l h) = h := by
  apply UInt8.toNat_inj.mp
  have hl := l.toNat_lt
  have hh := h.toNat_lt
  rw [hi, UInt16.toNat_toUInt8, UInt16.toNat_shiftRight, toNat_half, Nat.shiftRight_eq_div_pow]
  change (l.toNat + 256 * h.toNat) / 256 % 256 = h.toNat
  omega

/-- `PortFeature::code`. -/
def PortFeature.code : PortFeature → UInt16
  | .reset => 4
  | .power => 8
  | .connectionChange => 16
  | .resetChange => 20

/-! ### The functions -/

namespace Dwc2.StdRequest

/-- `StdRequest::set_address`. -/
def setAddress (addr : UInt8) : Vector UInt8 8 := #v[0x00, 5, addr, 0, 0, 0, 0, 0]

/-- `StdRequest::set_configuration`. -/
def setConfiguration (cfg : UInt8) : Vector UInt8 8 := #v[0x00, 9, cfg, 0, 0, 0, 0, 0]

/-- `StdRequest::get_descriptor_configuration`. -/
def getDescriptorConfiguration (cfgIndex : UInt8) (wLength : UInt16) : Vector UInt8 8 :=
  let wValue := (2 : UInt16) <<< 8 ||| cfgIndex.toUInt16
  #v[0x80, 6, lo wValue, hi wValue, 0x00, 0x00, lo wLength, hi wLength]

end Dwc2.StdRequest

namespace HubRequest

/-- `HubRequest::set_port_feature`. -/
def setPortFeature (port : UInt16) (feature : PortFeature) : Vector UInt8 8 :=
  #v[0x23, 0x03, lo feature.code, hi feature.code, lo port, hi port, 0, 0]

/-- `HubRequest::clear_port_feature`. -/
def clearPortFeature (port : UInt16) (feature : PortFeature) : Vector UInt8 8 :=
  #v[0x23, 0x01, lo feature.code, hi feature.code, lo port, hi port, 0, 0]

/-- `HubRequest::get_port_status`. -/
def getPortStatus (port : UInt16) : Vector UInt8 8 := #v[0xA3, 0x00, 0, 0, lo port, hi port, 4, 0]

/-- `HubRequest::get_hub_descriptor`. -/
def getHubDescriptor (wLength : UInt16) : Vector UInt8 8 :=
  #v[0xA0, 0x06, 0x00, USB_DT_HUB, 0x00, 0x00, lo wLength, hi wLength]

end HubRequest

namespace Uvc.UvcRequest

/-- A request to an entity of a VideoControl interface. -/
def control (requestType request interface entityId selector : UInt8) (wLength : UInt16) :
    Vector UInt8 8 :=
  let wValue := selector.toUInt16 <<< 8
  let wIndex := entityId.toUInt16 <<< 8 ||| interface.toUInt16
  #v[requestType, request, lo wValue, hi wValue, lo wIndex, hi wIndex, lo wLength, hi wLength]

/-- `UvcRequest::set_cur_control`. -/
def setCurControl : (interface entityId selector : UInt8) → (wLength : UInt16) → Vector UInt8 8 :=
  control 0x21 0x01

/-- `UvcRequest::get_cur_control`. -/
def getCurControl : (interface entityId selector : UInt8) → (wLength : UInt16) → Vector UInt8 8 :=
  control 0xA1 0x81

/-- `UvcRequest::get_def_control`. -/
def getDefControl : (interface entityId selector : UInt8) → (wLength : UInt16) → Vector UInt8 8 :=
  control 0xA1 0x87

end Uvc.UvcRequest

/-! ### The requests -/

/-- Every request the firmware makes. -/
inductive SetupRequest where
  | getDescriptorDevice
  | getDescriptorConfiguration (cfgIndex : UInt8) (wLength : UInt16)
  | setAddress (addr : UInt8)
  | setConfiguration (cfg : UInt8)
  | setInterface (alt interface : UInt8)
  | getHubDescriptor (wLength : UInt16)
  | getPortStatus (port : UInt16)
  | setPortFeature (port : UInt16) (feature : PortFeature)
  | clearPortFeature (port : UInt16) (feature : PortFeature)
  | setCurStreaming (interface selector : UInt8) (wLength : UInt16)
  | getCurStreaming (interface selector : UInt8) (wLength : UInt16)
  | getMaxStreaming (interface selector : UInt8) (wLength : UInt16)
  | setCurControl (interface entityId selector : UInt8) (wLength : UInt16)
  | getCurControl (interface entityId selector : UInt8) (wLength : UInt16)
  | getDefControl (interface entityId selector : UInt8) (wLength : UInt16)
  deriving DecidableEq, Repr

namespace SetupRequest

/-- The packet of a request, as the function for it puts it together. -/
def packet : SetupRequest → Vector UInt8 8
  | getDescriptorDevice => Dwc2.StdRequest.getDescriptorDevice
  | getDescriptorConfiguration cfgIndex wLength =>
    Dwc2.StdRequest.getDescriptorConfiguration cfgIndex wLength
  | setAddress addr => Dwc2.StdRequest.setAddress addr
  | setConfiguration cfg => Dwc2.StdRequest.setConfiguration cfg
  | setInterface alt interface => Dwc2.StdRequest.setInterface alt interface
  | getHubDescriptor wLength => HubRequest.getHubDescriptor wLength
  | getPortStatus port => HubRequest.getPortStatus port
  | setPortFeature port feature => HubRequest.setPortFeature port feature
  | clearPortFeature port feature => HubRequest.clearPortFeature port feature
  | setCurStreaming interface selector wLength =>
    Uvc.UvcRequest.setCurStreaming interface selector wLength
  | getCurStreaming interface selector wLength =>
    Uvc.UvcRequest.getCurStreaming interface selector wLength
  | getMaxStreaming interface selector wLength =>
    Uvc.UvcRequest.getMaxStreaming interface selector wLength
  | setCurControl interface entityId selector wLength =>
    Uvc.UvcRequest.setCurControl interface entityId selector wLength
  | getCurControl interface entityId selector wLength =>
    Uvc.UvcRequest.getCurControl interface entityId selector wLength
  | getDefControl interface entityId selector wLength =>
    Uvc.UvcRequest.getDefControl interface entityId selector wLength

/-- Entity 0 is the interface itself: a request to it is no request to an entity. -/
def Addressed : SetupRequest → Prop
  | setCurControl _ entityId _ _ | getCurControl _ entityId _ _ | getDefControl _ entityId _ _ =>
    entityId ≠ 0
  | _ => True

instance (r : SetupRequest) : Decidable r.Addressed := by
  unfold Addressed
  split <;> infer_instance

end SetupRequest

/-! ### Reading a packet -/

/-- The feature with a code. -/
def PortFeature.ofCode (code : UInt16) : Option PortFeature :=
  [PortFeature.reset, .power, .connectionChange, .resetChange].find? fun f => f.code == code

/-- A device's reading of the standard requests. -/
def decodeStandard (ty rq vl vh il ih ll lh : UInt8) : Option SetupRequest :=
  if ty = 0x80 ∧ rq = 6 ∧ vl = 0 ∧ vh = 1 ∧ il = 0 ∧ ih = 0 ∧ ll = 18 ∧ lh = 0 then
    some .getDescriptorDevice
  else if ty = 0x80 ∧ rq = 6 ∧ vh = 2 ∧ il = 0 ∧ ih = 0 then
    some (.getDescriptorConfiguration vl (half ll lh))
  else if ty = 0 ∧ rq = 5 ∧ vh = 0 ∧ il = 0 ∧ ih = 0 ∧ ll = 0 ∧ lh = 0 then some (.setAddress vl)
  else if ty = 0 ∧ rq = 9 ∧ vh = 0 ∧ il = 0 ∧ ih = 0 ∧ ll = 0 ∧ lh = 0 then
    some (.setConfiguration vl)
  else if ty = 1 ∧ rq = 0x0B ∧ vh = 0 ∧ ih = 0 ∧ ll = 0 ∧ lh = 0 then some (.setInterface vl il)
  else none

/-- A hub's reading of the requests of its class. -/
def decodeHub (ty rq vl vh il ih ll lh : UInt8) : Option SetupRequest :=
  if ty = 0xA0 ∧ rq = 6 ∧ vl = 0 ∧ vh = USB_DT_HUB ∧ il = 0 ∧ ih = 0 then
    some (.getHubDescriptor (half ll lh))
  else if ty = 0xA3 ∧ rq = 0 ∧ vl = 0 ∧ vh = 0 ∧ ll = 4 ∧ lh = 0 then
    some (.getPortStatus (half il ih))
  else if ty = 0x23 ∧ rq = 3 ∧ ll = 0 ∧ lh = 0 then
    (PortFeature.ofCode (half vl vh)).map (.setPortFeature (half il ih))
  else if ty = 0x23 ∧ rq = 1 ∧ ll = 0 ∧ lh = 0 then
    (PortFeature.ofCode (half vl vh)).map (.clearPortFeature (half il ih))
  else none

/-- A camera's reading of the requests of its class; the low byte of `wIndex` is the interface, the
high one the entity in it. -/
def decodeUvc (ty rq vl vh il ih ll lh : UInt8) : Option SetupRequest :=
  if ty = 0x21 ∧ rq = 0x01 ∧ vl = 0 then
    if ih = 0 then some (.setCurStreaming il vh (half ll lh))
    else some (.setCurControl il ih vh (half ll lh))
  else if ty = 0xA1 ∧ rq = 0x81 ∧ vl = 0 then
    if ih = 0 then some (.getCurStreaming il vh (half ll lh))
    else some (.getCurControl il ih vh (half ll lh))
  else if ty = 0xA1 ∧ rq = 0x83 ∧ vl = 0 ∧ ih = 0 then some (.getMaxStreaming il vh (half ll lh))
  else if ty = 0xA1 ∧ rq = 0x87 ∧ vl = 0 ∧ ih ≠ 0 then some (.getDefControl il ih vh (half ll lh))
  else none

/-- A device's reading of eight bytes. -/
def decode (p : Vector UInt8 8) : Option SetupRequest :=
  match p.toList with
  | [ty, rq, vl, vh, il, ih, ll, lh] =>
    ((decodeStandard ty rq vl vh il ih ll lh).or (decodeHub ty rq vl vh il ih ll lh)).or
      (decodeUvc ty rq vl vh il ih ll lh)
  | _ => none

theorem or_eq_half (l h : UInt8) : h.toUInt16 <<< 8 ||| l.toUInt16 = half l h := by
  apply UInt16.toNat_inj.mp
  have hl := l.toNat_lt
  have hh := h.toNat_lt
  rw [toNat_half, UInt16.toNat_or, UInt16.toNat_shiftLeft, UInt8.toNat_toUInt16,
    UInt8.toNat_toUInt16]
  change (h.toNat <<< 8 % 65536) ||| l.toNat = _
  rw [Nat.mod_eq_of_lt (by rw [Nat.shiftLeft_eq]; omega), ← Nat.shiftLeft_add_eq_or_of_lt hl,
    Nat.shiftLeft_eq]
  omega

theorem shiftLeft_eq_half (h : UInt8) : h.toUInt16 <<< 8 = half 0 h := by
  rw [← or_eq_half]
  exact (UInt16.or_zero).symm

theorem getDescriptorConfiguration_eq (cfgIndex : UInt8) (wLength : UInt16) :
    Dwc2.StdRequest.getDescriptorConfiguration cfgIndex wLength =
      #v[0x80, 6, cfgIndex, 2, 0, 0, lo wLength, hi wLength] := by
  have htwo : (2 : UInt16) = (2 : UInt8).toUInt16 := by decide
  have hword : (2 : UInt16) <<< 8 ||| cfgIndex.toUInt16 = half cfgIndex 2 := by
    rw [htwo, or_eq_half]
  change #v[0x80, 6, lo ((2 : UInt16) <<< 8 ||| cfgIndex.toUInt16),
    hi ((2 : UInt16) <<< 8 ||| cfgIndex.toUInt16), 0, 0, lo wLength, hi wLength] = _
  rw [hword, lo_half, hi_half]

theorem streaming_eq (ty rq interface selector : UInt8) (wLength : UInt16) :
    Uvc.UvcRequest.streaming ty rq interface selector wLength =
      #v[ty, rq, 0, selector, interface, 0, lo wLength, hi wLength] := by
  change #v[ty, rq, lo (selector.toUInt16 <<< 8), hi (selector.toUInt16 <<< 8), interface, 0,
    lo wLength, hi wLength] = _
  rw [shiftLeft_eq_half, lo_half, hi_half]

theorem control_eq (ty rq interface entityId selector : UInt8) (wLength : UInt16) :
    Uvc.UvcRequest.control ty rq interface entityId selector wLength =
      #v[ty, rq, 0, selector, interface, entityId, lo wLength, hi wLength] := by
  change #v[ty, rq, lo (selector.toUInt16 <<< 8), hi (selector.toUInt16 <<< 8),
    lo (entityId.toUInt16 <<< 8 ||| interface.toUInt16),
    hi (entityId.toUInt16 <<< 8 ||| interface.toUInt16), lo wLength, hi wLength] = _
  rw [or_eq_half, shiftLeft_eq_half, lo_half, hi_half, lo_half, hi_half]

theorem ofCode_code (f : PortFeature) : PortFeature.ofCode f.code = some f := by cases f <;> decide

theorem code_ofCode {code : UInt16} {f : PortFeature} (h : PortFeature.ofCode code = some f) :
    f.code = code := by
  have hf := List.find?_some h
  exact eq_of_beq hf

theorem bytes_ofCode {l h : UInt8} {f : PortFeature} (hf : PortFeature.ofCode (half l h) = some f) :
    lo f.code = l ∧ hi f.code = h := by
  have hcode := code_ofCode hf
  exact ⟨(congrArg lo hcode).trans (lo_half l h), (congrArg hi hcode).trans (hi_half l h)⟩

theorem setPortFeature_eq {l h : UInt8} {f : PortFeature}
    (hf : PortFeature.ofCode (half l h) = some f) (port : UInt16) :
    HubRequest.setPortFeature port f = #v[0x23, 3, l, h, lo port, hi port, 0, 0] := by
  obtain ⟨hlo, hhi⟩ := bytes_ofCode hf
  simp only [HubRequest.setPortFeature, hlo, hhi]

theorem clearPortFeature_eq {l h : UInt8} {f : PortFeature}
    (hf : PortFeature.ofCode (half l h) = some f) (port : UInt16) :
    HubRequest.clearPortFeature port f = #v[0x23, 1, l, h, lo port, hi port, 0, 0] := by
  obtain ⟨hlo, hhi⟩ := bytes_ofCode hf
  simp only [HubRequest.clearPortFeature, hlo, hhi]

/-- A packet is read as the request it was made for. -/
theorem decode_packet (r : SetupRequest) (h : r.Addressed) : decode r.packet = some r := by
  cases r with
  | getDescriptorDevice => rfl
  | getDescriptorConfiguration cfgIndex wLength =>
    rw [SetupRequest.packet, getDescriptorConfiguration_eq]
    simp [decode, decodeStandard]
  | setAddress addr => simp [SetupRequest.packet, Dwc2.StdRequest.setAddress, decode, decodeStandard]
  | setConfiguration cfg =>
    simp [SetupRequest.packet, Dwc2.StdRequest.setConfiguration, decode, decodeStandard]
  | setInterface alt interface =>
    simp [SetupRequest.packet, Dwc2.StdRequest.setInterface, decode, decodeStandard]
  | getHubDescriptor wLength =>
    simp [SetupRequest.packet, HubRequest.getHubDescriptor, decode, decodeStandard, decodeHub]
  | getPortStatus port =>
    simp [SetupRequest.packet, HubRequest.getPortStatus, decode, decodeStandard, decodeHub]
  | setPortFeature port feature =>
    simp [SetupRequest.packet, HubRequest.setPortFeature, decode, decodeStandard, decodeHub,
      ofCode_code]
  | clearPortFeature port feature =>
    simp [SetupRequest.packet, HubRequest.clearPortFeature, decode, decodeStandard, decodeHub,
      ofCode_code]
  | setCurStreaming interface selector wLength =>
    rw [SetupRequest.packet, Uvc.UvcRequest.setCurStreaming, streaming_eq]
    simp [decode, decodeStandard, decodeHub, decodeUvc]
  | getCurStreaming interface selector wLength =>
    rw [SetupRequest.packet, Uvc.UvcRequest.getCurStreaming, streaming_eq]
    simp [decode, decodeStandard, decodeHub, decodeUvc]
  | getMaxStreaming interface selector wLength =>
    rw [SetupRequest.packet, Uvc.UvcRequest.getMaxStreaming, streaming_eq]
    simp [decode, decodeStandard, decodeHub, decodeUvc]
  | setCurControl interface entityId selector wLength =>
    have hentity : entityId ≠ 0 := h
    rw [SetupRequest.packet, Uvc.UvcRequest.setCurControl, control_eq]
    simp [decode, decodeStandard, decodeHub, decodeUvc, hentity]
  | getCurControl interface entityId selector wLength =>
    have hentity : entityId ≠ 0 := h
    rw [SetupRequest.packet, Uvc.UvcRequest.getCurControl, control_eq]
    simp [decode, decodeStandard, decodeHub, decodeUvc, hentity]
  | getDefControl interface entityId selector wLength =>
    have hentity : entityId ≠ 0 := h
    rw [SetupRequest.packet, Uvc.UvcRequest.getDefControl, control_eq]
    simp [decode, decodeStandard, decodeHub, decodeUvc, hentity]

theorem toList_eq {p : Vector UInt8 8} {b : List UInt8} (h : p.toList = b) (hb : b.length = 8) :
    p = ⟨b.toArray, by simpa using hb⟩ := by
  subst h
  rfl

section Accepted

variable {ty rq vl vh il ih ll lh : UInt8} {r : SetupRequest}

theorem packet_of_decodeStandard (h : decodeStandard ty rq vl vh il ih ll lh = some r) :
    #v[ty, rq, vl, vh, il, ih, ll, lh] = r.packet ∧ r.Addressed := by
  unfold decodeStandard at h
  split at h
  · rename_i hc
    obtain ⟨rfl, rfl, rfl, rfl, rfl, rfl, rfl, rfl⟩ := hc
    cases h
    exact ⟨rfl, trivial⟩
  split at h
  · rename_i hc
    obtain ⟨rfl, rfl, rfl, rfl, rfl⟩ := hc
    cases h
    rw [SetupRequest.packet, getDescriptorConfiguration_eq, lo_half, hi_half]
    exact ⟨rfl, trivial⟩
  split at h
  · rename_i hc
    obtain ⟨rfl, rfl, rfl, rfl, rfl, rfl, rfl⟩ := hc
    cases h
    exact ⟨rfl, trivial⟩
  split at h
  · rename_i hc
    obtain ⟨rfl, rfl, rfl, rfl, rfl, rfl, rfl⟩ := hc
    cases h
    exact ⟨rfl, trivial⟩
  split at h
  · rename_i hc
    obtain ⟨rfl, rfl, rfl, rfl, rfl, rfl⟩ := hc
    cases h
    exact ⟨rfl, trivial⟩
  · cases h

theorem packet_of_decodeHub (h : decodeHub ty rq vl vh il ih ll lh = some r) :
    #v[ty, rq, vl, vh, il, ih, ll, lh] = r.packet ∧ r.Addressed := by
  unfold decodeHub at h
  split at h
  · rename_i hc
    obtain ⟨rfl, rfl, rfl, rfl, rfl, rfl⟩ := hc
    cases h
    refine ⟨?_, trivial⟩
    simp only [SetupRequest.packet, HubRequest.getHubDescriptor, lo_half, hi_half]
  split at h
  · rename_i hc
    obtain ⟨rfl, rfl, rfl, rfl, rfl, rfl⟩ := hc
    cases h
    refine ⟨?_, trivial⟩
    simp only [SetupRequest.packet, HubRequest.getPortStatus, lo_half, hi_half]
  split at h
  · rename_i hc
    obtain ⟨rfl, rfl, rfl, rfl⟩ := hc
    obtain ⟨f, hf, hr⟩ := Option.map_eq_some_iff.mp h
    subst hr
    refine ⟨?_, trivial⟩
    change _ = HubRequest.setPortFeature (half il ih) f
    rw [setPortFeature_eq hf, lo_half, hi_half]
  split at h
  · rename_i hc
    obtain ⟨rfl, rfl, rfl, rfl⟩ := hc
    obtain ⟨f, hf, hr⟩ := Option.map_eq_some_iff.mp h
    subst hr
    refine ⟨?_, trivial⟩
    change _ = HubRequest.clearPortFeature (half il ih) f
    rw [clearPortFeature_eq hf, lo_half, hi_half]
  · cases h

theorem packet_of_decodeUvc (h : decodeUvc ty rq vl vh il ih ll lh = some r) :
    #v[ty, rq, vl, vh, il, ih, ll, lh] = r.packet ∧ r.Addressed := by
  unfold decodeUvc at h
  split at h
  · rename_i hc
    obtain ⟨rfl, rfl, rfl⟩ := hc
    split at h
    · rename_i hih
      cases h
      rw [SetupRequest.packet, Uvc.UvcRequest.setCurStreaming, streaming_eq, lo_half, hi_half, hih]
      exact ⟨rfl, trivial⟩
    · rename_i hih
      cases h
      rw [SetupRequest.packet, Uvc.UvcRequest.setCurControl, control_eq, lo_half, hi_half]
      exact ⟨rfl, hih⟩
  split at h
  · rename_i hc
    obtain ⟨rfl, rfl, rfl⟩ := hc
    split at h
    · rename_i hih
      cases h
      rw [SetupRequest.packet, Uvc.UvcRequest.getCurStreaming, streaming_eq, lo_half, hi_half, hih]
      exact ⟨rfl, trivial⟩
    · rename_i hih
      cases h
      rw [SetupRequest.packet, Uvc.UvcRequest.getCurControl, control_eq, lo_half, hi_half]
      exact ⟨rfl, hih⟩
  split at h
  · rename_i hc
    obtain ⟨rfl, rfl, rfl, rfl⟩ := hc
    cases h
    rw [SetupRequest.packet, Uvc.UvcRequest.getMaxStreaming, streaming_eq, lo_half, hi_half]
    exact ⟨rfl, trivial⟩
  split at h
  · rename_i hc
    obtain ⟨rfl, rfl, rfl, hih⟩ := hc
    cases h
    rw [SetupRequest.packet, Uvc.UvcRequest.getDefControl, control_eq, lo_half, hi_half]
    exact ⟨rfl, hih⟩
  · cases h

end Accepted

/-- What is read as a request is the packet of it. -/
theorem packet_of_decode {p : Vector UInt8 8} {r : SetupRequest} (h : decode p = some r) :
    p = r.packet ∧ r.Addressed := by
  unfold decode at h
  split at h
  · rename_i ty rq vl vh il ih ll lh hp
    rw [toList_eq hp rfl]
    change #v[ty, rq, vl, vh, il, ih, ll, lh] = r.packet ∧ r.Addressed
    rcases Option.or_eq_some_iff.mp h with h | ⟨-, h⟩
    · rcases Option.or_eq_some_iff.mp h with h | ⟨-, h⟩
      · exact packet_of_decodeStandard h
      · exact packet_of_decodeHub h
    · exact packet_of_decodeUvc h
  · cases h

/-- The packet of a request to entity 0 is read as one to the interface itself, where the camera has
one of the kind. -/
theorem decode_entityZero (interface selector : UInt8) (wLength : UInt16) :
    decode (SetupRequest.setCurControl interface 0 selector wLength).packet =
        some (.setCurStreaming interface selector wLength) ∧
      decode (SetupRequest.getCurControl interface 0 selector wLength).packet =
        some (.getCurStreaming interface selector wLength) ∧
      decode (SetupRequest.getDefControl interface 0 selector wLength).packet = none := by
  have hset : (SetupRequest.setCurControl interface 0 selector wLength).packet =
      (SetupRequest.setCurStreaming interface selector wLength).packet :=
    (control_eq 0x21 0x01 interface 0 selector wLength).trans
      (streaming_eq 0x21 0x01 interface selector wLength).symm
  have hget : (SetupRequest.getCurControl interface 0 selector wLength).packet =
      (SetupRequest.getCurStreaming interface selector wLength).packet :=
    (control_eq 0xA1 0x81 interface 0 selector wLength).trans
      (streaming_eq 0xA1 0x81 interface selector wLength).symm
  refine ⟨?_, ?_, ?_⟩
  · rw [hset]
    exact decode_packet _ trivial
  · rw [hget]
    exact decode_packet _ trivial
  · rw [SetupRequest.packet, Uvc.UvcRequest.getDefControl, control_eq]
    simp [decode, decodeStandard, decodeHub, decodeUvc]

/-- **A packet is read as the request it was made for, and nothing else is read**: eight bytes are
read as a request exactly when they are its packet.  A request that sets or gets the current value at
entity 0 has the packet of one to the interface, and one for the default value is read as nothing. -/
theorem decode_eq_some_iff :
    (∀ (p : Vector UInt8 8) (r : SetupRequest), decode p = some r ↔ p = r.packet ∧ r.Addressed) ∧
    ∀ (interface selector : UInt8) (wLength : UInt16),
      decode (SetupRequest.setCurControl interface 0 selector wLength).packet =
          some (.setCurStreaming interface selector wLength) ∧
        decode (SetupRequest.getCurControl interface 0 selector wLength).packet =
          some (.getCurStreaming interface selector wLength) ∧
        decode (SetupRequest.getDefControl interface 0 selector wLength).packet = none := by
  refine ⟨fun p r => ⟨packet_of_decode, fun h => ?_⟩, decode_entityZero⟩
  rw [h.1]
  exact decode_packet r h.2

end Cvirtos.Usb
