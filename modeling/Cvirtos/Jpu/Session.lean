import Cvirtos.Jpu.Reset
import Cvirtos.Jpu.PoolRegion
import Cvirtos.Lib.Triple

/-!
# Decoding sessions

`drivers/jpu/session.rs`: the one decoder, made at the first frame and made anew after every error.

* `Sane` — the invariant between two frames;
* `decodeToShared_run` — a frame keeps it, and is decoded as it would be alone;
* `decodeAll_sound` — **every picture is started on a block that is fed** and has been reset since
  the last decode that failed;
* `decodeAll_eq` — **a session is a list of independent decodes**: no frame changes what becomes of
  a later one;
* `decodeAll_returns` — **no frame and no block hold the driver up for ever**.
-/

set_option autoImplicit false

namespace Cvirtos.Jpu

open Cvirtos.Lib

def YUV_BUF_PA : Nat := 0x8FE88000
def YUV_BUF_SIZE : Nat := 614400

/-- Width, height and bytes of a decoded frame. -/
abbrev Decoded := UInt32 × UInt32 × Nat

/-- How the firmware stops for good. -/
inductive Halt where
  | panic
  /-- The loop of `poll_decode_done` has not ended. -/
  | polling
  deriving DecidableEq, Repr

structure Session (σ : Type) where
  hw : JpuSoc σ
  /-- `MEM_STATE`. -/
  pool : JpuMemoryPool
  /-- `DECODER`. -/
  decoder : Option JpuDecoder
  /-- `RESET_COUNT`. -/
  resetCount : UInt32
  /-- TOP, VC and the block at every `START_PIC`. -/
  starts : List (Soc × σ)

/-- A part of the driver in a session. -/
abbrev InSession (σ α : Type) := EStateM Halt (Session σ) α

section

variable {σ : Type} (blk : JpuBlock σ) (fuel : Nat)

/-- `poll_decode_done`, with the start before it. -/
def startAndPoll (s : Started) : InSession σ (Except String Unit) := fun w =>
  let w := { w with
    starts := w.starts ++ [(w.hw.soc, w.hw.block)]
    hw := { w.hw with block := blk.start s w.hw.block } }
  match pollDecodeDone blk fuel w.hw.block with
  | none => .error .polling w
  | some (r, turn) => .ok r { w with hw := { w.hw with block := blk.settle w.hw.block turn r } }

/-- `hard_reset` in a session. -/
def resetBlock : InSession σ Unit := modify fun w => { w with hw := hardReset blk w.hw }

/-- `JpuDecoder::decode`. -/
def JpuDecoder.decode (dec : JpuDecoder) (jpegData : List UInt8) :
    InSession σ (Except String Decoded) :=
  match dec.start jpegData with
  | .error .panic => throw .panic
  | .error (.error e) => return .error e
  | .ok s => do
    match ← startAndPoll blk fuel s with
    | .error e =>
      resetBlock blk
      return .error e
    | .ok () => return .ok (s.header.width, s.header.height, s.frameSize)

/-- `create_decoder`. -/
def createDecoder : InSession σ (Except String JpuDecoder) := fun w =>
  match JpuDecoder.newWithPool w.pool JPU_POOL_PA JPU_POOL_SIZE YUV_BUF_PA YUV_BUF_SIZE with
  | .error .panic => .error .panic w
  | .error (.error e) =>
    .ok (.error e)
      { w with hw := hardwareInit blk w.hw, pool := initJpuMemoryWith w.pool JPU_POOL_PA JPU_POOL_SIZE }
  | .ok (dec, pool) => .ok (.ok dec) { w with hw := hardwareInit blk w.hw, pool := pool }

/-- `*cell = None`: the decoder is dropped, and its stream buffer freed. -/
def dropDecoder (dec : JpuDecoder) : InSession σ Unit := fun w =>
  if dec.streamBuf.isEmpty then .ok () { w with decoder := none }
  else
    match jpuFree w.pool dec.streamBuf with
    | .error _ => .error .panic w
    | .ok pool => .ok () { w with decoder := none, pool := pool }

/-- A decode error: the decoder is dropped and made anew. -/
def recover (dec : JpuDecoder) : InSession σ Unit := do
  modify fun w => { w with resetCount := w.resetCount + 1 }
  dropDecoder dec
  match ← createDecoder blk with
  | .ok dec => modify fun w => { w with decoder := some dec }
  | .error _ => return ()

/-- `decode_to_shared` with a decoder. -/
def decodeWith (dec : JpuDecoder) (jpeg : List UInt8) : InSession σ (Except String Decoded) := do
  match ← dec.decode blk fuel jpeg with
  | .ok r => return .ok r
  | .error e =>
    recover blk dec
    return .error e

/-- `decode_to_shared`. -/
def decodeToShared (jpeg : List UInt8) : InSession σ (Except String Decoded) := do
  match (← get).decoder with
  | some dec => decodeWith blk fuel dec jpeg
  | none =>
    match ← createDecoder blk with
    | .error e => return .error e
    | .ok dec =>
      modify fun w => { w with decoder := some dec }
      decodeWith blk fuel dec jpeg

/-- `take_reset_count`. -/
def takeResetCount : InSession σ UInt32 := fun w => .ok w.resetCount { w with resetCount := 0 }

/-- A session: one frame after the other. -/
def decodeAll : List (List UInt8) → InSession σ (List (Except String Decoded))
  | [] => return []
  | jpeg :: jpegs => do
    let r ← decodeToShared blk fuel jpeg
    let rs ← decodeAll jpegs
    return r :: rs

end

/-! ### The platform's pool -/

/-- The pool while the decoder holds its stream buffer: all sixteen pages are taken. -/
def heldPool : JpuMemoryPool :=
  ⟨0x8FF20000, 0x40000, 16, ⟨#[0xFFFFFFFFFFFF0000], rfl⟩⟩

theorem newWithPool_platform (pool : JpuMemoryPool) :
    JpuDecoder.newWithPool pool JPU_POOL_PA JPU_POOL_SIZE YUV_BUF_PA YUV_BUF_SIZE =
      .ok (platformDecoder, heldPool) := by
  -- what the pool held is forgotten
  change JpuDecoder.newWithPool ⟨0, 0, 0, Vector.replicate BITMAP_WORDS 0⟩ JPU_POOL_PA JPU_POOL_SIZE
    YUV_BUF_PA YUV_BUF_SIZE = _
  decide +kernel

theorem jpuFree_held : ∃ pool, jpuFree heldPool platformDecoder.streamBuf = .ok pool := by
  have hfree : jpuFree heldPool platformDecoder.streamBuf =
      .ok { heldPool with bitmap := Vector.replicate BITMAP_WORDS 0xFFFFFFFFFFFFFFFF } := by
    decide +kernel
  exact ⟨_, hfree⟩

/-! ### The invariant -/

/-- What is known of the block: a reset heals it, and it stays healthy until a decode fails. -/
structure Resettable {σ : Type} (blk : JpuBlock σ) (fuel : Nat) (Healthy : σ → Prop) : Prop where
  reset : ∀ b, Healthy (blk.reset b)
  warmUp : ∀ b, Healthy b → Healthy (blk.warmUp b)
  done : ∀ b s turn, Healthy b → pollDecodeDone blk fuel (blk.start s b) = some (.ok (), turn) →
    Healthy (blk.settle (blk.start s b) turn (.ok ()))

section

variable {σ : Type} (Healthy : σ → Prop) (rst : BitVec 32)

/-- What has been done to the hardware was right. -/
structure Sound (w : Session σ) : Prop where
  starts : ∀ x ∈ w.starts, Fed x.1 ∧ Healthy x.2
  rst : RstKept rst w.hw

/-- **The invariant** between two frames: the block is healthy, and a decoder has its buffer and a
block that is fed. -/
structure Sane (w : Session σ) : Prop extends Sound Healthy rst w where
  healthy : Healthy w.hw.block
  decoder : w.decoder = none ∨
    w.decoder = some platformDecoder ∧ w.pool = heldPool ∧ Fed w.hw.soc

/-- A sane session with its decoder. -/
structure Live (w : Session σ) : Prop extends Sane Healthy rst w where
  present : w.decoder = some platformDecoder

end

/-- What becomes of a frame on its own, given what becomes of the decodes that start. -/
def decodeOnce (verdict : Started → Option (Except String Unit)) (dec : JpuDecoder)
    (jpegData : List UInt8) : Except Halt (Except String Decoded) :=
  match dec.start jpegData with
  | .error .panic => .error .panic
  | .error (.error e) => .ok (.error e)
  | .ok s =>
    match verdict s with
    | none => .error .polling
    | some (.error e) => .ok (.error e)
    | some (.ok ()) => .ok (.ok (s.header.width, s.header.height, s.frameSize))

theorem decodeOnce_congr {verdict verdict' : Started → Option (Except String Unit)}
    {dec : JpuDecoder} {jpegData : List UInt8} (h : ∀ s, verdict s = verdict' s) :
    decodeOnce verdict dec jpegData = decodeOnce verdict' dec jpegData := by
  unfold decodeOnce
  simp only [h]

section

variable {σ : Type} {blk : JpuBlock σ} {fuel : Nat} {Healthy : σ → Prop} {rst : BitVec 32}
  {w : Session σ}

theorem Live.held (h : Live Healthy rst w) : w.pool = heldPool ∧ Fed w.hw.soc := by
  rcases h.decoder with hnone | ⟨-, hheld⟩
  · rw [h.present] at hnone
    cases hnone
  · exact hheld

/-- **A decoder is made**: the block is warmed up, and the pool gives out its sixteen pages. -/
theorem createDecoder_run (hblk : Resettable blk fuel Healthy) (hsound : Sound Healthy rst w)
    (hhealthy : Healthy w.hw.block) :
    ∃ w', (createDecoder blk).run w = .ok (.ok platformDecoder) w' ∧
      Live Healthy rst { w' with decoder := some platformDecoder } ∧
      w'.hw.block = blk.warmUp w.hw.block ∧ w'.resetCount = w.resetCount := by
  obtain ⟨hfed, hblock⟩ := hardwareInit_fed blk w.hw
  refine ⟨{ w with hw := hardwareInit blk w.hw, pool := heldPool }, ?_, ?_, hblock, rfl⟩
  · change (createDecoder blk) w = _
    unfold createDecoder
    rw [newWithPool_platform]
  · refine ⟨⟨⟨hsound.starts, hsound.rst.hardwareInit blk⟩, ?_, .inr ⟨rfl, rfl, hfed⟩⟩, rfl⟩
    change Healthy (hardwareInit blk w.hw).block
    rw [hblock]
    exact hblk.warmUp _ hhealthy

/-- **An error is recovered from**: the decoder is there again, on a block that is fed. -/
theorem recover_run (hblk : Resettable blk fuel Healthy) (hlive : Live Healthy rst w) :
    ∃ w', (recover blk platformDecoder).run w = .ok () w' ∧ Live Healthy rst w' ∧
      w'.resetCount = w.resetCount + 1 := by
  obtain ⟨pool, hfree⟩ := jpuFree_held
  have hdrop : (dropDecoder platformDecoder : InSession σ Unit).run
      { w with resetCount := w.resetCount + 1 } =
      .ok () { w with resetCount := w.resetCount + 1, decoder := none, pool := pool } := by
    change dropDecoder platformDecoder _ = _
    unfold dropDecoder
    rw [if_neg (by decide), hlive.held.1, hfree]
  have hsound : Sound Healthy rst
      { w with resetCount := w.resetCount + 1, decoder := none, pool := pool } :=
    ⟨hlive.starts, hlive.rst⟩
  obtain ⟨w', hcreate, hlive', -, hcount⟩ := createDecoder_run hblk hsound hlive.healthy
  have hmodify : (modify fun w => { w with resetCount := w.resetCount + 1 } : InSession σ Unit).run w =
      .ok () { w with resetCount := w.resetCount + 1 } := rfl
  refine ⟨_, (run_bind hmodify).trans ((run_bind hdrop).trans ((run_bind hcreate).trans ?_)), hlive',
    hcount⟩
  rfl

/-- **A part of the driver does what `out` says**: what it has done to the hardware is right in
either case, and `Q` holds of its end if it returns. -/
def Yields {α : Type} (Healthy : σ → Prop) (rst : BitVec 32) (x : InSession σ α) (w : Session σ)
    (out : Except Halt α) (Q : α → Session σ → Prop) : Prop :=
  ∃ w', Sound Healthy rst w' ∧
    match out with
    | .ok a => x.run w = .ok a w' ∧ Q a w'
    | .error h => x.run w = .error h w'

theorem Yields.bind {α β : Type} {x : InSession σ α} {f : α → InSession σ β} {out : Except Halt α}
    {g : α → Except Halt β} {Q : α → Session σ → Prop} {R : β → Session σ → Prop}
    (h : Yields Healthy rst x w out Q)
    (hf : ∀ a w', Q a w' → Yields Healthy rst (f a) w' (g a) R) :
    Yields Healthy rst (x >>= f) w (out >>= g) R := by
  obtain ⟨w₁, hsound, hrun⟩ := h
  cases out with
  | error e => exact ⟨w₁, hsound, run_bind_error hrun⟩
  | ok a =>
    obtain ⟨hrun, hQ⟩ := hrun
    obtain ⟨w₂, hsound₂, hrun₂⟩ := hf a w₁ hQ
    refine ⟨w₂, hsound₂, ?_⟩
    rw [run_bind hrun]
    exact hrun₂

theorem Yields.pure {α : Type} {a : α} {Q : α → Session σ → Prop} (hsound : Sound Healthy rst w)
    (hQ : Q a w) : Yields Healthy rst (Pure.pure a) w (.ok a) Q :=
  ⟨w, hsound, rfl, hQ⟩

theorem Yields.post {α : Type} {x : InSession σ α} {out : Except Halt α}
    {Q R : α → Session σ → Prop} (h : Yields Healthy rst x w out Q) (hQR : ∀ a w', Q a w' → R a w') :
    Yields Healthy rst x w out R := by
  obtain ⟨w', hsound, hrun⟩ := h
  refine ⟨w', hsound, ?_⟩
  cases out with
  | error e => exact hrun
  | ok a => exact ⟨hrun.1, hQR _ _ hrun.2⟩

theorem Yields.of_run {α : Type} {x y : InSession σ α} {w₁ : Session σ} {out : Except Halt α}
    {Q : α → Session σ → Prop} (hrun : x.run w = y.run w₁) (h : Yields Healthy rst y w₁ out Q) :
    Yields Healthy rst x w out Q := by
  obtain ⟨w', hsound, hy⟩ := h
  exact ⟨w', hsound, by rwa [hrun]⟩

/-- What becomes of the decodes started on a block. -/
def verdictOn (blk : JpuBlock σ) (fuel : Nat) (b : σ) (s : Started) :
    Option (Except String Unit) :=
  (pollDecodeDone blk fuel (blk.start s b)).map Prod.fst

/-- **A start** is made on a block that is fed and healthy; the block is healthy once it is done, or
once it is reset. -/
theorem startAndPoll_run (hblk : Resettable blk fuel Healthy) (hlive : Live Healthy rst w) (s : Started) :
    Yields Healthy rst (startAndPoll blk fuel s) w
      (match verdictOn blk fuel w.hw.block s with
        | none => .error .polling
        | some r => .ok r)
      fun r w' => w'.resetCount = w.resetCount ∧
        match r with
        | .ok () => Live Healthy rst w'
        | .error _ => Live Healthy rst { w' with hw := hardReset blk w'.hw } := by
  have hstarts : ∀ x ∈ w.starts ++ [(w.hw.soc, w.hw.block)], Fed x.1 ∧ Healthy x.2 := by
    intro x hx
    rcases List.mem_append.mp hx with hx | hx
    · exact hlive.starts x hx
    · obtain rfl := List.mem_singleton.mp hx
      exact ⟨hlive.held.2, hlive.healthy⟩
  have hsound : ∀ b : σ, Sound Healthy rst
      { w with starts := w.starts ++ [(w.hw.soc, w.hw.block)], hw := { w.hw with block := b } } :=
    fun _ => ⟨hstarts, ⟨hlive.rst.now, hlive.rst.before⟩⟩
  have hrun : (startAndPoll blk fuel s).run w = startAndPoll blk fuel s w := rfl
  unfold Yields
  rw [hrun]
  unfold verdictOn startAndPoll
  dsimp only
  rcases hpoll : pollDecodeDone blk fuel (blk.start s w.hw.block) with _ | ⟨e | ⟨⟩, turn⟩
  · exact ⟨_, hsound (blk.start s w.hw.block), rfl⟩
  · refine ⟨_, hsound (blk.settle (blk.start s w.hw.block) turn (.error e)), rfl, rfl, ?_⟩
    obtain ⟨hfed, hblock⟩ := hardReset_fed blk
      { w.hw with block := blk.settle (blk.start s w.hw.block) turn (.error e) }
    refine ⟨⟨⟨hstarts, (hsound _).rst.hardReset blk⟩, ?_,
      .inr ⟨hlive.present, hlive.held.1, hfed⟩⟩, hlive.present⟩
    change Healthy (hardReset blk _).block
    rw [hblock]
    exact hblk.reset _
  · refine ⟨_, hsound (blk.settle (blk.start s w.hw.block) turn (.ok ())), rfl, rfl, ?_⟩
    exact ⟨⟨hsound _, hblk.done _ _ _ hlive.healthy hpoll,
      .inr ⟨hlive.present, hlive.held.1, hlive.held.2⟩⟩, hlive.present⟩

/-- **A decode** is the one of the frame alone, and leaves the decoder in order. -/
theorem decode_run (hblk : Resettable blk fuel Healthy) (hlive : Live Healthy rst w) (jpeg : List UInt8) :
    Yields Healthy rst (platformDecoder.decode blk fuel jpeg) w
      (decodeOnce (verdictOn blk fuel w.hw.block) platformDecoder jpeg)
      fun _ w' => Live Healthy rst w' ∧ w'.resetCount = w.resetCount := by
  unfold JpuDecoder.decode decodeOnce
  rcases platformDecoder.start jpeg with (e | _) | s
  · exact .pure hlive.toSound ⟨hlive, rfl⟩
  · exact ⟨w, hlive.toSound, rfl⟩
  obtain ⟨w₁, hsound, hrun⟩ := startAndPoll_run hblk hlive s
  revert hrun
  dsimp only
  rcases verdictOn blk fuel w.hw.block s with _ | e | ⟨⟩ <;> intro hrun
  · exact ⟨w₁, hsound, run_bind_error hrun⟩
  · obtain ⟨hrun, hcount, hlive'⟩ := hrun
    have hreset : (resetBlock blk).run w₁ = .ok () { w₁ with hw := hardReset blk w₁.hw } := rfl
    exact ⟨_, hlive'.toSound, (run_bind hrun).trans (run_bind hreset), hlive', hcount⟩
  · obtain ⟨hrun, hcount, hlive'⟩ := hrun
    exact ⟨w₁, hsound, run_bind hrun, hlive', hcount⟩

/-- The decode errors in one result. -/
def errorCount (r : Except String Decoded) : UInt32 := if r.isOk then 0 else 1

theorem decodeWith_run (hblk : Resettable blk fuel Healthy) (hlive : Live Healthy rst w)
    (jpeg : List UInt8) :
    Yields Healthy rst (decodeWith blk fuel platformDecoder jpeg) w
      (decodeOnce (verdictOn blk fuel w.hw.block) platformDecoder jpeg)
      fun r w' => Live Healthy rst w' ∧ w'.resetCount = w.resetCount + errorCount r := by
  obtain ⟨w₁, hsound, hrun⟩ := decode_run hblk hlive jpeg
  revert hrun
  unfold decodeWith
  rcases decodeOnce (verdictOn blk fuel w.hw.block) platformDecoder jpeg with h | e | r <;>
    intro hrun
  · exact ⟨w₁, hsound, run_bind_error hrun⟩
  · obtain ⟨hrun, hlive₁, hcount₁⟩ := hrun
    obtain ⟨w₂, hrecover, hlive₂, hcount₂⟩ := recover_run hblk hlive₁
    exact ⟨w₂, hlive₂.toSound, (run_bind hrun).trans (run_bind hrecover), hlive₂,
      hcount₁ ▸ hcount₂⟩
  · obtain ⟨hrun, hlive₁, hcount₁⟩ := hrun
    exact ⟨w₁, hsound, run_bind hrun, hlive₁, hcount₁.trans (UInt32.add_zero _).symm⟩

/-- **A frame** is decoded as it would be alone, on a block that is healthy. -/
theorem decodeToShared_run (hblk : Resettable blk fuel Healthy) (hsane : Sane Healthy rst w)
    (jpeg : List UInt8) :
    ∃ b, Healthy b ∧ Yields Healthy rst (decodeToShared blk fuel jpeg) w
      (decodeOnce (verdictOn blk fuel b) platformDecoder jpeg)
      fun r w' => Sane Healthy rst w' ∧ w'.resetCount = w.resetCount + errorCount r := by
  have hget : (get : InSession σ (Session σ)).run w = .ok w w := rfl
  rcases hsane.decoder with hnone | ⟨hsome, -⟩
  · -- the first frame
    obtain ⟨w₁, hcreate, hlive, -, hcount⟩ := createDecoder_run hblk hsane.toSound hsane.healthy
    have hmodify : (modify fun w => { w with decoder := some platformDecoder } :
        InSession σ Unit).run w₁ = .ok () { w₁ with decoder := some platformDecoder } := rfl
    have hrun : (decodeToShared blk fuel jpeg).run w =
        (decodeWith blk fuel platformDecoder jpeg).run
          { w₁ with decoder := some platformDecoder } := by
      unfold decodeToShared
      rw [run_bind hget, hnone]
      exact (run_bind hcreate).trans (run_bind hmodify)
    exact ⟨w₁.hw.block, hlive.healthy, .of_run hrun <| (decodeWith_run hblk hlive jpeg).post
      fun _ _ h => ⟨h.1.toSane, h.2.trans (congrArg (· + _) hcount)⟩⟩
  · have hlive : Live Healthy rst w := ⟨hsane, hsome⟩
    have hrun : (decodeToShared blk fuel jpeg).run w =
        (decodeWith blk fuel platformDecoder jpeg).run w := by
      unfold decodeToShared
      rw [run_bind hget, hsome]
    exact ⟨w.hw.block, hsane.healthy, .of_run hrun <| (decodeWith_run hblk hlive jpeg).post
      fun _ _ h => ⟨h.1.toSane, h.2⟩⟩

/-- The decode errors of a list of results. -/
def errors : List (Except String Decoded) → UInt32
  | [] => 0
  | r :: rs => errorCount r + errors rs

theorem errors_append (rs rs' : List (Except String Decoded)) :
    errors (rs ++ rs') = errors rs + errors rs' := by
  induction rs with
  | nil => exact (UInt32.zero_add _).symm
  | cons r rs ih => rw [List.cons_append, errors, errors, ih, UInt32.add_assoc]

theorem triple_decodeToShared (hblk : Resettable blk fuel Healthy) (jpeg : List UInt8) :
    Triple (Sane Healthy rst) (decodeToShared blk fuel jpeg) (fun _ => Sane Healthy rst)
      fun _ => Sound Healthy rst := by
  intro w hsane
  obtain ⟨b, -, w', hsound, hrun⟩ := decodeToShared_run hblk hsane jpeg
  revert hrun
  rcases decodeOnce (verdictOn blk fuel b) platformDecoder jpeg with h | r <;> intro hrun
  · rw [hrun]
    exact hsound
  · rw [hrun.1]
    exact hrun.2.1

theorem triple_decodeAll (hblk : Resettable blk fuel Healthy) (jpegs : List (List UInt8)) :
    Triple (Sane Healthy rst) (decodeAll blk fuel jpegs) (fun _ => Sane Healthy rst)
      fun _ => Sound Healthy rst := by
  induction jpegs with
  | nil => exact triple_pure fun _ h => h
  | cons jpeg jpegs ih =>
      refine triple_bind (triple_decodeToShared hblk jpeg) fun _ => triple_bind ih fun _ => ?_
      exact triple_pure fun _ h => h

/-- The frames of a session, one after the other, if a healthy block always does the same. -/
theorem decodeAll_run {verdict : Started → Option (Except String Unit)} (hblk : Resettable blk fuel Healthy)
    (hverdict : ∀ b s, Healthy b → verdictOn blk fuel b s = verdict s) (hsane : Sane Healthy rst w)
    (jpegs : List (List UInt8)) :
    Yields Healthy rst (decodeAll blk fuel jpegs) w
      (jpegs.mapM (decodeOnce verdict platformDecoder))
      fun rs w' => Sane Healthy rst w' ∧ w'.resetCount = w.resetCount + errors rs := by
  induction jpegs generalizing w with
  | nil => exact .pure hsane.toSound ⟨hsane, (UInt32.add_zero _).symm⟩
  | cons jpeg jpegs ih =>
      obtain ⟨b, hb, hfirst⟩ := decodeToShared_run hblk hsane jpeg
      rw [decodeOnce_congr fun s => hverdict b s hb] at hfirst
      rw [List.mapM_cons]
      refine hfirst.bind fun r w₁ ⟨hsane₁, hcount₁⟩ =>
        (ih hsane₁).bind fun rs w₂ ⟨hsane₂, hcount₂⟩ => .pure hsane₂.toSound ⟨hsane₂, ?_⟩
      rw [hcount₂, hcount₁, UInt32.add_assoc]
      rfl

/-- The firmware before its first frame. -/
def boot (soc : Soc) (b : σ) (pool : JpuMemoryPool) : Session σ := ⟨⟨soc, b, []⟩, pool, none, 0, []⟩

theorem boot_sane (soc : Soc) {b : σ} (pool : JpuMemoryPool) (hb : Healthy b) :
    Sane Healthy soc.rst (boot soc b pool) where
  starts := fun _ hx => absurd hx List.not_mem_nil
  rst := ⟨fun _ _ => rfl, fun _ hx => absurd hx List.not_mem_nil⟩
  healthy := hb
  decoder := .inl rfl

variable (soc : Soc) {b : σ} (pool : JpuMemoryPool)

/-- **Every picture is started on a block that is fed and healthy**, whatever the frames are and
whatever becomes of them; and `TOP.rst` is written with its first value, but for the bit of the
JPU. -/
theorem decodeAll_sound (hblk : Resettable blk fuel Healthy) (hb : Healthy b) (jpegs : List (List UInt8)) :
    let w := endState ((decodeAll blk fuel jpegs).run (boot soc b pool))
    (∀ x ∈ w.starts, Fed x.1 ∧ Healthy x.2) ∧ ∀ v ∈ w.hw.rsts, KeepsRst soc.rst v := by
  have hend := triple_endState (triple_pre (triple_post (triple_decodeAll hblk jpegs)
    fun _ _ h => h.toSound) fun _ h => h) (boot_sane soc pool hb)
  exact ⟨hend.starts, hend.rst.before⟩

/-- **A session from boot is a list of independent decodes**, if a healthy block always does the
same: no frame changes what becomes of a later one, also when it hangs the block. -/
theorem decodeAll_eq {verdict : Started → Option (Except String Unit)} (hblk : Resettable blk fuel Healthy)
    (hverdict : ∀ b s, Healthy b → verdictOn blk fuel b s = verdict s) (hb : Healthy b)
    (jpegs : List (List UInt8)) :
    ∃ w', match jpegs.mapM (decodeOnce verdict platformDecoder) with
      | .ok rs => (decodeAll blk fuel jpegs).run (boot soc b pool) = .ok rs w' ∧
          w'.resetCount = errors rs
      | .error h => (decodeAll blk fuel jpegs).run (boot soc b pool) = .error h w' := by
  obtain ⟨w', -, hrun⟩ := decodeAll_run hblk hverdict (boot_sane soc pool hb) jpegs
  refine ⟨w', ?_⟩
  revert hrun
  rcases jpegs.mapM (decodeOnce verdict platformDecoder) with h | rs <;> intro hrun
  · exact hrun
  · exact ⟨hrun.1, hrun.2.2.trans (UInt32.zero_add _)⟩

end

/-! ### Every frame comes to an end -/

section

variable {σ : Type} {blk : JpuBlock σ} {fuel : Nat}

/-- `x` stops at a panic only. -/
abbrev Returns {α : Type} (x : InSession σ α) : Prop :=
  Triple (fun _ => True) x (fun _ _ => True) fun h _ => h = .panic

theorem startAndPoll_returns (h : Clocked blk fuel) (s : Started) :
    Returns (startAndPoll blk fuel s) := by
  intro w _
  obtain ⟨r, turn, hpoll⟩ := pollDecodeDone_returns blk h (blk.start s w.hw.block)
  have hrun : (startAndPoll blk fuel s).run w = startAndPoll blk fuel s w := rfl
  rw [hrun]
  unfold startAndPoll
  dsimp only
  rw [hpoll]
  trivial

theorem decode_returns (h : Clocked blk fuel) (dec : JpuDecoder) (jpeg : List UInt8) :
    Returns (dec.decode blk fuel jpeg) := by
  unfold JpuDecoder.decode
  split
  · exact triple_throw fun _ _ => rfl
  · exact triple_pure fun _ _ => trivial
  · refine triple_bind (startAndPoll_returns h _) fun r => ?_
    cases r with
    | error e =>
      exact triple_bind (Q := fun _ _ => True) (fun _ _ => trivial) fun _ =>
        triple_pure fun _ _ => trivial
    | ok u => exact triple_pure fun _ _ => trivial

theorem createDecoder_returns : Returns (createDecoder blk) := by
  intro w _
  have hrun : (createDecoder blk).run w = createDecoder blk w := rfl
  rw [hrun]
  unfold createDecoder
  rcases JpuDecoder.newWithPool w.pool JPU_POOL_PA JPU_POOL_SIZE YUV_BUF_PA YUV_BUF_SIZE with
    (e | _) | made
  · trivial
  · rfl
  · trivial

theorem dropDecoder_returns (dec : JpuDecoder) : Returns (dropDecoder (σ := σ) dec) := by
  intro w _
  have hrun : (dropDecoder dec).run w = dropDecoder dec w := rfl
  rw [hrun]
  unfold dropDecoder
  cases dec.streamBuf.isEmpty with
  | true => trivial
  | false =>
    rcases jpuFree w.pool dec.streamBuf with e | pool
    · rfl
    · trivial

theorem recover_returns (dec : JpuDecoder) : Returns (recover blk dec) := by
  unfold recover
  refine triple_bind (Q := fun _ _ => True) (fun _ _ => trivial) fun _ => ?_
  refine triple_bind (dropDecoder_returns dec) fun _ => triple_bind createDecoder_returns fun r => ?_
  cases r <;> exact fun _ _ => trivial

theorem decodeWith_returns (h : Clocked blk fuel) (dec : JpuDecoder) (jpeg : List UInt8) :
    Returns (decodeWith blk fuel dec jpeg) := by
  unfold decodeWith
  refine triple_bind (decode_returns h dec jpeg) fun r => ?_
  cases r with
  | ok r => exact triple_pure fun _ _ => trivial
  | error e => exact triple_bind (recover_returns dec) fun _ => triple_pure fun _ _ => trivial

theorem decodeToShared_returns (h : Clocked blk fuel) (jpeg : List UInt8) :
    Returns (decodeToShared blk fuel jpeg) := by
  unfold decodeToShared
  refine triple_bind (Q := fun _ _ => True) (fun _ _ => trivial) fun w => ?_
  cases w.decoder with
  | some dec => exact decodeWith_returns h dec jpeg
  | none =>
    refine triple_bind createDecoder_returns fun r => ?_
    cases r with
    | error e => exact triple_pure fun _ _ => trivial
    | ok dec =>
      exact triple_bind (Q := fun _ _ => True) (fun _ _ => trivial) fun _ =>
        decodeWith_returns h dec jpeg

theorem triple_decodeAll_length (h : Clocked blk fuel) (jpegs : List (List UInt8)) :
    Triple (fun _ => True) (decodeAll blk fuel jpegs) (fun rs _ => rs.length = jpegs.length)
      fun h _ => h = .panic := by
  induction jpegs with
  | nil => exact triple_pure fun _ _ => rfl
  | cons jpeg jpegs ih =>
      refine triple_bind (decodeToShared_returns h jpeg) fun _ => triple_bind ih fun rs => ?_
      exact triple_pure fun _ hlen => congrArg Nat.succ hlen

/-- **No frame and no block hold the driver up for ever**: from any state, a session comes to its
end with a result for every frame, unless it panics. -/
theorem decodeAll_returns (h : Clocked blk fuel) (w : Session σ) (jpegs : List (List UInt8)) :
    ∃ w', (∃ rs, (decodeAll blk fuel jpegs).run w = .ok rs w' ∧ rs.length = jpegs.length) ∨
      (decodeAll blk fuel jpegs).run w = .error .panic w' := by
  have hend := triple_decodeAll_length h jpegs w trivial
  cases hrun : (decodeAll blk fuel jpegs).run w with
  | ok rs w' =>
      rw [hrun] at hend
      exact ⟨w', .inl ⟨rs, rfl, hend⟩⟩
  | error e w' =>
      rw [hrun] at hend
      exact ⟨w', .inr (congrArg (EStateM.Result.error · w') hend)⟩

end

/-- A block that hangs on every frame that is not 4:2:0, until it is reset; its clock reads 200 ms
more every time. -/
def fussyBlock : JpuBlock Bool where
  reset _ := false
  warmUp hung := hung
  start s hung := hung || s.layout.compInfo ≠ 0xA55
  picStatus hung _ := if hung then 0#32 else 1#32
  rdtime _ i := .ofNat 64 (5000000 * i)
  settle hung _ _ := hung

def fussyVerdict (s : Started) : Option (Except String Unit) :=
  if s.layout.compInfo ≠ 0xA55 then some (.error "JPU decode timeout") else some (.ok ())

theorem fussy_poll : pollDecodeDone fussyBlock 1 true = some (.error "JPU decode timeout", 0) ∧
    pollDecodeDone fussyBlock 1 false = some (.ok (), 0) := by
  decide +kernel

theorem fussy_recovers : Resettable fussyBlock 1 (· = false) where
  reset _ := rfl
  warmUp _ h := h
  done b s turn _ hpoll := by
    cases hstart : fussyBlock.start s b with
    | false => rfl
    | true =>
      rw [hstart, fussy_poll.1] at hpoll
      cases hpoll

theorem fussy_verdict (b : Bool) (s : Started) (hb : b = false) :
    verdictOn fussyBlock 1 b s = fussyVerdict s := by
  subst hb
  unfold verdictOn fussyVerdict
  change (pollDecodeDone fussyBlock 1 (false || decide (s.layout.compInfo ≠ 0xA55))).map _ = _
  by_cases h : s.layout.compInfo ≠ 0xA55
  · rw [if_pos h, decide_eq_true h, Bool.false_or, fussy_poll.1]
    rfl
  · rw [if_neg h, decide_eq_false h, Bool.false_or, fussy_poll.2]
    rfl

theorem decodeAll_fussy_sound :
    (endState ((decodeAll fussyBlock 1 [smallFrame 0x22, smallFrame 0x41, []]).run
      (boot ⟨0#32, 0#32, 0#32⟩ false heldPool))).hw.rsts.getLast? = some 0x10#32 ∧
        KeepsRst 0#32 0x10#32 := by
  have hlast : (endState ((decodeAll fussyBlock 1 [smallFrame 0x22, smallFrame 0x41, []]).run
      (boot ⟨0#32, 0#32, 0#32⟩ false heldPool))).hw.rsts.getLast? = some 0x10#32 := by
    decide +kernel
  exact ⟨hlast, (decodeAll_sound _ _ fussy_recovers rfl _).2 _ (List.mem_of_getLast? hlast)⟩

theorem decodeOnce_fussy :
    [smallFrame 0x22, smallFrame 0x41, [], smallFrame 0x22].mapM
      (decodeOnce fussyVerdict platformDecoder) =
        .ok [.ok (8, 8, 384), .error "JPU decode timeout", .error "SOS not found",
          .ok (8, 8, 384)] := by
  decide +kernel

theorem decodeAll_fussy : ∃ w',
    (decodeAll fussyBlock 1 [smallFrame 0x22, smallFrame 0x41, [], smallFrame 0x22]).run
      (boot ⟨0#32, 0#32, 0#32⟩ false heldPool) =
        .ok [.ok (8, 8, 384), .error "JPU decode timeout", .error "SOS not found",
          .ok (8, 8, 384)] w' ∧ w'.resetCount = 2 := by
  obtain ⟨w', hrun⟩ := decodeAll_eq ⟨0#32, 0#32, 0#32⟩ heldPool fussy_recovers fussy_verdict
    rfl [smallFrame 0x22, smallFrame 0x41, [], smallFrame 0x22]
  rw [decodeOnce_fussy] at hrun
  exact ⟨w', hrun.1, hrun.2.trans (by decide)⟩

theorem fussy_clocked : Clocked fussyBlock 1 := fun _ =>
  ⟨⟨fun k => 5000000 * k, fun k => by omega⟩, 0, Nat.one_pos, fun _ => rfl, by decide, by decide⟩

theorem decodeAll_fussy_returns : ∃ w',
    (∃ rs, (decodeAll fussyBlock 1 [smallFrame 0x41, []]).run
      (boot ⟨0#32, 0#32, 0#32⟩ true heldPool) = .ok rs w' ∧ rs.length = 2) ∨
      (decodeAll fussyBlock 1 [smallFrame 0x41, []]).run
        (boot ⟨0#32, 0#32, 0#32⟩ true heldPool) = .error .panic w' :=
  decodeAll_returns fussy_clocked _ _

end Cvirtos.Jpu
