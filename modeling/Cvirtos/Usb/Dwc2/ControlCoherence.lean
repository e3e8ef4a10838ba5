import Cvirtos.Usb.Dwc2.Coherence

/-!
# Control transfers and the cache

Every control transfer keeps the window coherent, if no earlier one that was given up on is still
running in the EP0 buffer when it starts.

* `Ep0Free` — that condition;
* `triple_setupStage` — the SETUP stage, where it is used;
* `triple_read`, `triple_write`, `triple_writeNoData`, `triple_probeDefaultAddr` — the four control
  transfers.
-/

set_option autoImplicit false

namespace Cvirtos.Usb.Dwc2

open Cvirtos.Lib Cvirtos.Arch

variable {bus : DmaBus} {w : DmaWorld} {off size : Nat}

/-- The control channel runs nothing that reads or writes the EP0 buffer. -/
def Ep0Free (w : DmaWorld) : Prop :=
  ∀ r ∈ w.running .control, r.transfer.dmaOff = OFF_EP0 → r.transfer.xferSize = 0

instance (w : DmaWorld) : Decidable (Ep0Free w) := inferInstanceAs (Decidable (∀ r ∈ _, _ → _))

/-! ### The two buffers -/

/-- The control channel has no target in the lines of a buffer. -/
def BufferFree (off size : Nat) (w : DmaWorld) : Prop :=
  ∀ r, w.running .control = some r → ∀ i < r.transfer.xferSize,
    ¬ InLines off (off + size) (r.transfer.at i / CACHE_LINE)

theorem bufferFree_of_idle (h : Idle .control w) (off size : Nat) : BufferFree off size w :=
  fun r hr => absurd (hr.symm.trans h.2) (Option.some_ne_none r)

/-- The SETUP packet and the data of control transfers lie in different lines. -/
theorem bufferFree_setup (hs : Settled w) (h : Ep0Free w) : BufferFree OFF_EP0 8 w := by
  intro r hr i hi hline
  obtain ⟨hoff | hoff, -⟩ := hs.placed .control r hr
  · rw [h r hr hoff] at hi
    exact absurd hi (Nat.not_lt_zero i)
  · have hend := hline.2
    unfold Transfer.at at hend
    rw [hoff] at hend
    unfold OFF_EP0 DMA_OFF_SMALL_IO CACHE_LINE at hend
    omega

/-- The bytes of a buffer, written but not cleaned yet. -/
def Draft (off size : Nat) (w : DmaWorld) : Prop :=
  Safe (InLines off (off + size)) w ∧ Undisturbed off (off + size) w ∧ Own off (off + size) w

/-- A buffer that may be written. -/
theorem Settled.open (h : Settled w) (hend : off + size ≤ EP0_REGION_BYTES)
    (hfree : BufferFree off size w) :
    Safe (InLines off (off + size)) w ∧ Undisturbed off (off + size) w := by
  have hapart : ∀ ch r, w.running ch = some r → ∀ i < r.transfer.xferSize,
      ¬ InLines off (off + size) (r.transfer.at i / CACHE_LINE) := by
    intro ch r hr i hi hline
    cases ch with
    | control => exact hfree r hr i hi hline
    | video =>
      have hbeyond := ((h.placed .video r hr).bounds hi).2.1 rfl
      have hstart := hline.2
      unfold EP0_REGION_BYTES at hbeyond hend
      unfold CACHE_LINE at hstart
      omega
  refine ⟨⟨h.faultless, h.placed, fun line hl => ?_, hapart, h.sent, h.stale⟩, ?_⟩
  · exact (h.dirty line hl).imp id False.elim
  · refine fun ch r hr _ i hi hin => hapart ch r hr i hi ⟨?_, ?_⟩
    · exact Nat.div_le_div_right hin.1
    · exact Nat.lt_of_le_of_lt (Nat.div_mul_le_self _ _) hin.2

/-- **The CPU writes a buffer.** -/
theorem triple_writeBuffer (bus : DmaBus) {bytes : List UInt8}
    (hend : off + bytes.length ≤ EP0_REGION_BYTES) :
    Triple (fun w => Settled w ∧ BufferFree off bytes.length w)
      (effect ((coherentMachine bus).write off bytes))
      (fun _ => Draft off bytes.length) (fun _ : Stop => Settled) := by
  refine triple_effect fun w hw => ?_
  obtain ⟨hs, hq⟩ := hw.1.open hend hw.2
  have hD : Writable (InLines off (off + bytes.length)) off (off + bytes.length) := by
    refine fun a h1 h2 => Or.inr ⟨Nat.div_le_div_right h1, ?_⟩
    exact Nat.lt_of_le_of_lt (Nat.div_mul_le_self _ _) h2
  obtain ⟨hs', hfewer, hown⟩ := writeBytes_own bus hs hD (Nat.le_refl _) hq
    fun a h1 h2 => absurd h2 (Nat.not_lt_of_le h1)
  exact ⟨hs', hq.of_fewer hfewer, hown⟩

/-- **The CPU cleans a buffer**: an OUT transfer may be armed with it. -/
theorem triple_cleanBuffer (bus : DmaBus) (t : Transfer) (hsize : 0 < t.xferSize) :
    Triple (Draft t.dmaOff t.xferSize)
      (effect ((coherentMachine bus).clean t.dmaOff t.xferSize))
      (fun _ => Ready t) (fun _ : Stop => Settled) := by
  refine triple_effect fun w hw => ?_
  obtain ⟨hs, hq, hown⟩ := hw
  obtain ⟨hs', hfewer, hown'⟩ := cleanRange_own bus hsize hs hq hown
  exact ⟨hs', fun _ => ⟨hq.of_fewer hfewer, hown'⟩⟩

theorem Ready.of_in {t : Transfer} (h : Settled w) (hdir : t.dirIn = true) : Ready t w :=
  ⟨h, fun hout => absurd (hdir.symm.trans hout) (by decide)⟩

theorem Ready.of_empty {t : Transfer} (h : Settled w) (hsize : t.xferSize = 0) : Ready t w := by
  refine ⟨h, fun _ => ⟨fun ch r hr _ i hi hin => ?_, fun a h1 h2 => ?_⟩⟩
  · rw [hsize] at hin
    exact absurd hin.2 (Nat.not_lt_of_le hin.1)
  · rw [hsize] at h2
    exact absurd h2 (Nat.not_lt_of_le h1)

/-- Nothing is received into the buffers of a control channel that is idle. -/
theorem undisturbed_of_idle {hi : Nat} (h : Idle .control w) (lo : Nat)
    (hend : hi ≤ EP0_REGION_BYTES) : Undisturbed lo hi w := by
  intro ch r hr _ i hlt hin
  cases ch with
  | control => exact absurd (hr.symm.trans h.2) (Option.some_ne_none r)
  | video =>
    have hbeyond := ((h.1.placed .video r hr).bounds hlt).2.1 rfl
    omega

/-! ### The stages -/

variable {ep : ControlEp}

theorem triple_setupStage (setupPacket : Vector UInt8 8) :
    Triple (fun w => Settled w ∧ Ep0Free w)
      (ControlEp.setupStage (coherentMachine bus) ep setupPacket)
      (fun _ => Idle .control) (fun _ => Settled) := by
  have hlen : setupPacket.toList.length = 8 := Vector.length_toList
  have hwrite : Triple (fun w => Settled w ∧ BufferFree OFF_EP0 setupPacket.toList.length w)
      (effect ((coherentMachine bus).write OFF_EP0 setupPacket.toList))
      (fun _ => Draft OFF_EP0 setupPacket.toList.length) (fun _ : Stop => Settled) :=
    triple_writeBuffer bus (by rw [hlen]; decide)
  rw [hlen] at hwrite
  have hclean : Triple (Draft OFF_EP0 8) (effect ((coherentMachine bus).clean OFF_EP0 8))
      (fun _ => Ready (ControlEp.transfer ep false .setup 8 OFF_EP0)) (fun _ : Stop => Settled) :=
    triple_cleanBuffer bus (ControlEp.transfer ep false .setup 8 OFF_EP0) (Nat.succ_pos 7)
  have hplaced : Placed .control (ControlEp.transfer ep false .setup 8 OFF_EP0) :=
    ⟨Or.inl rfl, show 8 ≤ EP0_REGION_BYTES by decide⟩
  refine triple_bind (triple_pre hwrite fun w hw => ⟨hw.1, bufferFree_setup hw.1 hw.2⟩) fun _ => ?_
  refine triple_bind hclean fun _ => ?_
  exact triple_bind (triple_xferReady hplaced) fun _ => triple_pure fun _ h => h

/-- The status stage moves no byte, and leaves `F` alone. -/
theorem triple_statusStage {dirIn : Bool} {F : DmaWorld → Prop}
    (hF : Frame bus .control (ControlEp.transfer ep dirIn .data1 0 OFF_EP0) F) :
    Triple (fun w => Settled w ∧ F w) (ControlEp.statusStage (coherentMachine bus) ep dirIn)
      (fun _ w => Settled w ∧ F w) (fun _ => Settled) := by
  have hplaced : Placed .control (ControlEp.transfer ep dirIn .data1 0 OFF_EP0) :=
    ⟨Or.inl rfl, Nat.zero_le _⟩
  refine triple_bind (triple_pre (triple_xferFrame hplaced hF)
    fun w hw => ⟨Ready.of_empty hw.1 rfl, hw.2⟩) fun _ => ?_
  exact triple_pure fun _ h => ⟨h.1.1, h.2⟩

theorem triple_lastStage (dirIn : Bool) :
    Triple (Idle .control) (ControlEp.statusStage (coherentMachine bus) ep dirIn)
      (fun _ => Settled) (fun _ => Settled) :=
  triple_weaken (triple_statusStage (frame_true bus .control _)) (fun _ h => ⟨h.1, trivial⟩)
    (fun _ _ h => h.1) fun _ _ h => h

/-! ### The transfers -/

theorem triple_writeNoData (setupPacket : Vector UInt8 8) :
    Triple (fun w => Settled w ∧ Ep0Free w)
      (ControlEp.writeNoData (coherentMachine bus) ep setupPacket)
      (fun _ => Settled) (fun _ => Settled) :=
  triple_bind (triple_setupStage setupPacket) fun _ => triple_lastStage true

/-- The bytes of a chunk are invalidated after the transfer that brought them, and before they are
copied. -/
theorem triple_readChunks {lens : List Nat} (data1 : Bool)
    (hlens : ∀ len ∈ lens, 0 < len ∧ DMA_OFF_SMALL_IO + len ≤ EP0_REGION_BYTES) :
    Triple (Idle .control) (ControlEp.readChunks (coherentMachine bus) ep data1 lens)
      (fun _ => Idle .control) (fun _ => Settled) := by
  induction lens generalizing data1 with
  | nil => exact triple_pure fun _ h => h
  | cons len lens ih =>
      obtain ⟨⟨hpos, hend⟩, hlens⟩ := List.forall_mem_cons.mp hlens
      have htargets : DMA_OFF_SMALL_IO + len ≤ TARGETS_END := Nat.le_trans hend (by decide)
      have hplaced : Placed .control
          (ControlEp.transfer ep true (dataPid data1) len DMA_OFF_SMALL_IO) := ⟨Or.inr rfl, hend⟩
      have hinvalidate : Triple (Idle .control)
          (effect ((coherentMachine bus).invalidate DMA_OFF_SMALL_IO len))
          (fun _ w => Idle .control w ∧ Fresh DMA_OFF_SMALL_IO ( DMA_OFF_SMALL_IO + len) w)
          (fun _ : Stop => Settled) := by
        refine triple_effect fun w hw => ?_
        obtain ⟨hs, hfewer, hfresh⟩ := invalidateRange_fresh bus hpos htargets hw.1
          (undisturbed_of_idle hw _ hend)
        exact ⟨⟨hs, hfewer.idle hw.2⟩, hfresh⟩
      have hread : Triple
          (fun w => Idle .control w ∧ Fresh DMA_OFF_SMALL_IO ( DMA_OFF_SMALL_IO + len) w)
          (query ((coherentMachine bus).read DMA_OFF_SMALL_IO len))
          (fun _ => Idle .control) (fun _ : Stop => Settled) := by
        refine triple_query fun w hw => ?_
        obtain ⟨hs, hfewer, -⟩ := readBytes_fresh bus 0 0 hw.1.1
          (undisturbed_of_idle hw.1 _ hend) hw.2
        exact ⟨hs, hfewer.idle hw.1.2⟩
      refine triple_bind (triple_pre (triple_xferReady hplaced)
        fun _ h => .of_in h.1 rfl) fun _ => ?_
      refine triple_bind hinvalidate fun _ => triple_bind hread fun _ => ?_
      exact triple_bind (ih (!data1) hlens) fun _ => triple_pure fun _ h => h

theorem triple_read (hmps : DMA_OFF_SMALL_IO + ep.mps ≤ EP0_REGION_BYTES)
    (setupPacket : Vector UInt8 8) (len : Nat) :
    Triple (fun w => Settled w ∧ Ep0Free w)
      (ControlEp.read (coherentMachine bus) ep setupPacket len)
      (fun _ => Settled) (fun _ => Settled) := by
  refine triple_ite (fun _ => triple_throw fun _ h => h.1) fun _ => ?_
  refine triple_bind (triple_setupStage setupPacket) fun _ => ?_
  refine triple_ite (fun _ => triple_throw fun _ h => h.1) fun _ => ?_
  refine triple_bind (triple_readChunks true fun k hk => ⟨chunkLens_pos k hk, ?_⟩) fun _ => ?_
  · exact Nat.le_trans (Nat.add_le_add_left (chunkLens_le k hk) _) hmps
  · exact triple_bind (triple_lastStage false) fun _ => triple_pure fun _ h => h

/-- A chunk is cleaned before it is sent. -/
theorem triple_writeChunks {cs : List (List UInt8)} (data1 : Bool)
    (hcs : ∀ c ∈ cs, 0 < c.length ∧ DMA_OFF_SMALL_IO + c.length ≤ EP0_REGION_BYTES) :
    Triple (Idle .control) (ControlEp.writeChunks (coherentMachine bus) ep data1 cs)
      (fun _ => Idle .control) (fun _ => Settled) := by
  induction cs generalizing data1 with
  | nil => exact triple_pure fun _ h => h
  | cons c cs ih =>
      obtain ⟨⟨hpos, hend⟩, hcs⟩ := List.forall_mem_cons.mp hcs
      have hplaced : Placed .control
          (ControlEp.transfer ep false (dataPid data1) c.length DMA_OFF_SMALL_IO) :=
        ⟨Or.inr rfl, hend⟩
      refine triple_bind (triple_pre (triple_writeBuffer bus hend)
        fun w hw => ⟨hw.1, bufferFree_of_idle hw _ _⟩) fun _ => ?_
      refine triple_bind (triple_cleanBuffer bus
        (ControlEp.transfer ep false (dataPid data1) c.length DMA_OFF_SMALL_IO) hpos) fun _ => ?_
      exact triple_bind (triple_xferReady hplaced) fun _ => ih (!data1) hcs

theorem triple_write (hmps : DMA_OFF_SMALL_IO + ep.mps ≤ EP0_REGION_BYTES)
    (setupPacket : Vector UInt8 8) (data : List UInt8) :
    Triple (fun w => Settled w ∧ Ep0Free w)
      (ControlEp.write (coherentMachine bus) ep setupPacket data)
      (fun _ => Settled) (fun _ => Settled) := by
  refine triple_ite (fun _ => triple_throw fun _ h => h.1) fun _ => ?_
  refine triple_bind (triple_setupStage setupPacket) fun _ => ?_
  refine triple_ite (fun _ => triple_throw fun _ h => h.1) fun _ => ?_
  refine triple_bind (triple_writeChunks true fun c hc => ⟨(chunks_bounds c hc).1, ?_⟩) fun _ => ?_
  · exact Nat.le_trans (Nat.add_le_add_left (chunks_bounds c hc).2 _) hmps
  · exact triple_lastStage true

/-- Bytes that nothing is received into, all of them invalidated. -/
def Received (lo hi : Nat) (w : DmaWorld) : Prop := Undisturbed lo hi w ∧ Fresh lo hi w

/-- An OUT transfer leaves received bytes alone. -/
theorem frame_received {t : Transfer} (lo hi : Nat) (hdir : t.dirIn = false) :
    Frame bus .control t (Received lo hi) := by
  refine ⟨fun w hs h => ?_, fun w h => ⟨fun ch r hr hin => ?_, h.2⟩, fun w h => ⟨?_, h.2⟩⟩
  · exact ⟨h.1.of_fewer (fewer_tick bus w), h.2.tick hs h.1 bus⟩
  · rcases setRunning_some hr with ⟨-, heq⟩ | ⟨-, hr⟩
    · obtain rfl : ⟨t, w.written⟩ = r := Option.some.inj heq
      rw [hdir] at hin
      cases hin
    · exact h.1 ch r hr hin
  · exact h.1.of_fewer fun _ _ hr => running_of_halted hr

/-- A field of the descriptor. -/
theorem triple_descriptorByte {i : Nat} (hi : i < 18) :
    Triple (fun w => Settled w ∧ Received OFF_EP0 (OFF_EP0 + 18) w)
      (descriptorByte (coherentMachine bus) i)
      (fun _ w => Settled w ∧ Received OFF_EP0 (OFF_EP0 + 18) w) (fun _ => Settled) := by
  have hread : Triple (fun w => Settled w ∧ Received OFF_EP0 (OFF_EP0 + 18) w)
      (query ((coherentMachine bus).read (OFF_EP0 + i) 1))
      (fun _ w => Settled w ∧ Received OFF_EP0 (OFF_EP0 + 18) w) (fun _ : Stop => Settled) := by
    refine triple_query fun w hw => ?_
    obtain ⟨hs, hq, hf⟩ := hw
    have hq' : Undisturbed (OFF_EP0 + i) (OFF_EP0 + i + 1) w :=
      fun ch r hr hdir j hj hin => hq ch r hr hdir j hj ⟨by omega, by omega⟩
    have hf' : Fresh (OFF_EP0 + i) (OFF_EP0 + i + 1) w :=
      fun a h1 h2 => hf a (by omega) (by omega)
    obtain ⟨hs', hfewer, hkeep⟩ := readBytes_fresh bus OFF_EP0 (OFF_EP0 + 18) hs hq' hf'
    exact ⟨hs', hq.of_fewer hfewer, hkeep hq hf⟩
  exact triple_bind hread fun _ => triple_pure fun _ h => h

/-- The fields of the descriptor are read out of the window, some of them after the status stage. -/
theorem triple_probeDefaultAddr :
    Triple (fun w => Settled w ∧ Ep0Free w)
      (ControlEp.probeDefaultAddr (coherentMachine bus))
      (fun _ => Settled) (fun _ => Settled) := by
  have hplaced : Placed .control (ControlEp.transfer (.new 64) true .data1 18 OFF_EP0) :=
    ⟨Or.inl rfl, show 18 ≤ EP0_REGION_BYTES by decide⟩
  have hinvalidate : Triple (Idle .control)
      (effect ((coherentMachine bus).invalidate OFF_EP0 18))
      (fun _ w => Settled w ∧ Received OFF_EP0 (OFF_EP0 + 18) w) (fun _ : Stop => Settled) := by
    refine triple_effect fun w hw => ?_
    have hq := undisturbed_of_idle hw OFF_EP0 (show OFF_EP0 + 18 ≤ EP0_REGION_BYTES by decide)
    obtain ⟨hs, hfewer, hfresh⟩ := invalidateRange_fresh bus (Nat.succ_pos 17)
      (show OFF_EP0 + 18 ≤ TARGETS_END by decide) hw.1 hq
    exact ⟨hs, hq.of_fewer hfewer, hfresh⟩
  refine triple_bind (triple_setupStage _) fun _ => ?_
  refine triple_bind (triple_pre (triple_xferReady hplaced) fun _ h => .of_in h.1 rfl) fun _ => ?_
  refine triple_bind hinvalidate fun _ => ?_
  refine triple_bind (triple_descriptorByte (by decide)) fun _ => ?_
  refine triple_bind (triple_statusStage (frame_received OFF_EP0 (OFF_EP0 + 18) rfl)) fun _ => ?_
  refine triple_bind (triple_descriptorByte (by decide)) fun _ => ?_
  refine triple_bind (triple_descriptorByte (by decide)) fun _ => ?_
  refine triple_bind (triple_descriptorByte (by decide)) fun _ => ?_
  refine triple_bind (triple_descriptorByte (by decide)) fun _ => ?_
  exact triple_bind (triple_descriptorByte (by decide)) fun _ => triple_pure fun _ h => h.1

end Cvirtos.Usb.Dwc2
