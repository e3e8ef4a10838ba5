import Cvirtos.Usb.Hub

/-!
# Topologies

A tree of devices.  A device is known by its path, the port numbers from the root port down.

* `Dev.find`, `Dev.preorder` — the device at a path, and all devices in the order of a walk that
  visits a hub before the devices on its ports;
* `mem_devices` — the order lists every device of the tree;
* `devices_pairwise` — **each once, and a hub before the devices behind it**.
-/

set_option autoImplicit false

namespace Cvirtos.Usb

/-- What a device answers, and its speed. -/
structure Desc where
  device : Vector UInt8 18
  config : Vector UInt8 64
  speed : PortSpeed
  deriving DecidableEq

/-- The device as it is enumerated at the given address. -/
def Desc.at (d : Desc) (addr : Nat) : UsbDevice :=
  let id := Identity.ofDescriptor d.device
  ⟨⟨addr, id.mps⟩, id.vid, id.pid, id.devClass, interfaceClass d.config, d.speed⟩

def Desc.isHub (d : Desc) : Bool := (d.at 0).isHub

mutual

/-- A device with what is behind it. -/
inductive Dev where
  | function (desc : Desc) (h : desc.isHub = false)
  /-- A hub, with its hub descriptor but for the bytes that `hubDescriptor` puts in. -/
  | hub (desc : Desc) (h : desc.isHub = true) (hubDesc : Vector UInt8 64) (ports : Ports)

/-- The ports of a hub, from a port number on. -/
inductive Ports where
  | nil
  | vacant (rest : Ports)
  | occupied (dev : Dev) (rest : Ports)

end

abbrev Path := List Nat

def Ports.length : Ports → Nat
  | .nil => 0
  | .vacant rest => rest.length + 1
  | .occupied _ rest => rest.length + 1

def Ports.get : Ports → Nat → Option Dev
  | .nil, _ => none
  | .vacant _, 0 => none
  | .occupied dev _, 0 => some dev
  | .vacant rest, i + 1 => rest.get i
  | .occupied _ rest, i + 1 => rest.get i

def Dev.desc : Dev → Desc
  | .function desc _ => desc
  | .hub desc _ _ _ => desc

/-- The device on a port; ports are numbered from 1. -/
def Dev.child : Dev → Nat → Option Dev
  | .function _ _, _ => none
  | .hub _ _ _ _, 0 => none
  | .hub _ _ _ ports, port + 1 => ports.get port

/-- The device at a path below. -/
def Dev.find : Dev → Path → Option Dev
  | d, [] => some d
  | d, port :: path => (d.child port).bind fun d => d.find path

mutual

/-- The device and those behind it, a hub before the devices on its ports, with their paths. -/
def Dev.preorder (path : Path) : Dev → List (Path × Dev)
  | .function desc h => [(path, .function desc h)]
  | .hub desc h hubDesc ports => (path, .hub desc h hubDesc ports) :: ports.preorder path 1

/-- The devices on the ports, the first of which is `port`. -/
def Ports.preorder (path : Path) (port : Nat) : Ports → List (Path × Dev)
  | .nil => []
  | .vacant rest => rest.preorder path (port + 1)
  | .occupied dev rest => dev.preorder (path ++ [port]) ++ rest.preorder path (port + 1)

end

/-- The devices behind a device. -/
def Dev.behind (path : Path) : Dev → List (Path × Dev)
  | .function _ _ => []
  | .hub _ _ _ ports => ports.preorder path 1

def Dev.nports : Dev → Nat
  | .function _ _ => 0
  | .hub _ _ _ ports => ports.length

/-- The device on the root port, if there is one, and those behind it. -/
abbrev Topology := Option Dev

def Topology.at (t : Topology) (path : Path) : Option Dev := t.bind fun d => d.find path

def Topology.devices (t : Topology) : List (Path × Dev) :=
  match t with
  | none => []
  | some d => d.preorder []

/-! ## The order of the devices -/

theorem Dev.find_append (d : Dev) (path rel : Path) :
    d.find (path ++ rel) = (d.find path).bind fun d => d.find rel := by
  induction path generalizing d with
  | nil => rfl
  | cons port path ih =>
      show (d.child port).bind (fun d => d.find (path ++ rel)) =
        ((d.child port).bind fun d => d.find path).bind fun d => d.find rel
      cases d.child port with
      | none => rfl
      | some c => exact ih c

theorem Dev.preorder_eq (d : Dev) (path : Path) : d.preorder path = (path, d) :: d.behind path := by
  cases d <;> rfl

/-- The device on a port of the hub at a path. -/
theorem Topology.at_child (t : Topology) {path : Path} {d : Dev} (h : t.at path = some d)
    (port : Nat) : t.at (path ++ [port]) = d.child port := by
  cases t with
  | none => cases h
  | some root =>
    have h : root.find path = some d := h
    show root.find (path ++ [port]) = d.child port
    rw [Dev.find_append, h]
    show (d.child port).bind (fun d => some d) = _
    cases d.child port <;> rfl

mutual

theorem Dev.mem_preorder (path : Path) : (d : Dev) → ∀ p e, (p, e) ∈ d.preorder path ↔
    ∃ rel, p = path ++ rel ∧ d.find rel = some e
  | .function desc h => by
    intro p e
    constructor
    · intro hx
      obtain ⟨rfl, rfl⟩ : p = path ∧ e = .function desc h := by simpa [Dev.preorder] using hx
      exact ⟨[], (List.append_nil _).symm, rfl⟩
    · rintro ⟨rel, rfl, hrel⟩
      cases rel with
      | nil =>
        cases hrel
        simp [Dev.preorder]
      | cons port rel => cases hrel
  | .hub desc h hubDesc ports => by
    intro p e
    rw [Dev.preorder, List.mem_cons, Ports.mem_preorder path 1 ports]
    constructor
    · rintro (hx | ⟨i, rel, c, hget, rfl, hrel⟩)
      · cases hx
        exact ⟨[], (List.append_nil _).symm, rfl⟩
      · refine ⟨(i + 1) :: rel, by rw [Nat.add_comm 1 i], ?_⟩
        show (ports.get i).bind (fun d => d.find rel) = some e
        rw [hget]
        exact hrel
    · rintro ⟨rel, rfl, hrel⟩
      cases rel with
      | nil =>
        cases hrel
        left
        rw [List.append_nil]
      | cons port rel =>
        right
        cases port with
        | zero => cases hrel
        | succ i =>
          have hrel : (ports.get i).bind (fun d => d.find rel) = some e := hrel
          obtain ⟨c, hget, hc⟩ := Option.bind_eq_some_iff.mp hrel
          exact ⟨i, rel, c, hget, by rw [Nat.add_comm 1 i], hc⟩

theorem Ports.mem_preorder (path : Path) (port : Nat) : (ports : Ports) →
    ∀ p e, (p, e) ∈ ports.preorder path port ↔
      ∃ i rel c, ports.get i = some c ∧ p = path ++ (port + i) :: rel ∧ c.find rel = some e
  | .nil => by
    intro p e
    simp [Ports.preorder, Ports.get]
  | .vacant rest => by
    intro p e
    rw [Ports.preorder, Ports.mem_preorder path (port + 1) rest]
    constructor
    · rintro ⟨i, rel, c, hget, rfl, hrel⟩
      exact ⟨i + 1, rel, c, hget, by rw [Nat.add_assoc, Nat.add_comm 1 i], hrel⟩
    · rintro ⟨i, rel, c, hget, rfl, hrel⟩
      cases i with
      | zero => cases hget
      | succ i => exact ⟨i, rel, c, hget, by rw [Nat.add_assoc, Nat.add_comm 1 i], hrel⟩
  | .occupied dev rest => by
    intro p e
    rw [Ports.preorder, List.mem_append, Dev.mem_preorder (path ++ [port]) dev,
      Ports.mem_preorder path (port + 1) rest]
    constructor
    · rintro (⟨rel, rfl, hrel⟩ | ⟨i, rel, c, hget, rfl, hrel⟩)
      · exact ⟨0, rel, dev, rfl, by simp, hrel⟩
      · exact ⟨i + 1, rel, c, hget, by rw [Nat.add_assoc, Nat.add_comm 1 i], hrel⟩
    · rintro ⟨i, rel, c, hget, rfl, hrel⟩
      cases i with
      | zero =>
        cases hget
        exact Or.inl ⟨rel, by simp, hrel⟩
      | succ i =>
        exact Or.inr ⟨i, rel, c, hget, by rw [Nat.add_assoc, Nat.add_comm 1 i], hrel⟩

end

/-- **Every device of the tree is listed**, at its path. -/
theorem mem_devices (t : Topology) (path : Path) (d : Dev) :
    (path, d) ∈ t.devices ↔ t.at path = some d := by
  cases t with
  | none => simp [Topology.devices, Topology.at]
  | some root =>
    show (path, d) ∈ root.preorder [] ↔ root.find path = some d
    rw [Dev.mem_preorder]
    constructor
    · rintro ⟨rel, rfl, h⟩
      exact h
    · intro h
      exact ⟨path, rfl, h⟩

theorem not_prefix_of_port {path p q : Path} {i j : Nat} (hij : i ≠ j)
    (hp : path ++ [i] <+: p) (hq : path ++ [j] <+: q) : ¬ q <+: p := by
  intro hqp
  have h := List.prefix_of_prefix_length_le hp (hq.trans hqp) (by simp)
  have heq := h.eq_of_length (by simp)
  have := List.append_cancel_left heq
  simp at this
  exact hij this

mutual

theorem Dev.preorder_pairwise (path : Path) : (d : Dev) →
    (d.preorder path).Pairwise fun x y => ¬ y.1 <+: x.1
  | .function desc h => List.pairwise_singleton _ _
  | .hub desc h hubDesc ports => by
    rw [Dev.preorder]
    refine List.pairwise_cons.mpr ⟨?_, Ports.preorder_pairwise path 1 ports⟩
    rintro ⟨p, e⟩ hx hle
    obtain ⟨i, rel, c, -, rfl, -⟩ := (Ports.mem_preorder path 1 ports p e).mp hx
    have hlen := hle.length_le
    simp only [List.length_append, List.length_cons] at hlen
    omega

theorem Ports.preorder_pairwise (path : Path) (port : Nat) : (ports : Ports) →
    (ports.preorder path port).Pairwise fun x y => ¬ y.1 <+: x.1
  | .nil => List.Pairwise.nil
  | .vacant rest => Ports.preorder_pairwise path (port + 1) rest
  | .occupied dev rest => by
    rw [Ports.preorder]
    refine List.pairwise_append.mpr ⟨Dev.preorder_pairwise (path ++ [port]) dev,
      Ports.preorder_pairwise path (port + 1) rest, ?_⟩
    rintro ⟨p, e⟩ hp ⟨q, e'⟩ hq
    obtain ⟨rel, rfl, -⟩ := (Dev.mem_preorder (path ++ [port]) dev p e).mp hp
    obtain ⟨i, rel', c, -, rfl, -⟩ := (Ports.mem_preorder path (port + 1) rest q e').mp hq
    refine not_prefix_of_port (i := port) (j := port + 1 + i) (by omega) (List.prefix_append _ _) ?_
    exact ⟨rel', by simp⟩

end

/-- **A device is listed once, and before the devices behind it.** -/
theorem devices_pairwise (t : Topology) : t.devices.Pairwise fun x y => ¬ y.1 <+: x.1 := by
  cases t with
  | none => exact List.Pairwise.nil
  | some root => exact root.preorder_pairwise []

end Cvirtos.Usb
