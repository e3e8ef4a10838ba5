import Mathlib.Init

/-!
# The DRAM mailbox

`ipc.rs`: the shared words at `MAILBOX_PA` and the functions that fill them in.  A function is the
list of the stores it makes, in the order the volatile accessors keep; the big core may see the
mailbox after any of them.
-/

set_option autoImplicit false

namespace Cvirtos.Ipc

def MAILBOX_MAGIC : UInt32 := 0xC906C906
def REPLY_MAGIC : UInt32 := 0x52504C59

def FLAG_SOI : UInt32 := (1 : UInt32) <<< 0
def FLAG_EOI : UInt32 := (1 : UInt32) <<< 1
def FLAG_YUV_READY : UInt32 := (1 : UInt32) <<< 15

/-- `MailboxRegs`. -/
structure MailboxRegs where
  magic : UInt32
  frameCount : UInt32
  /-- 0: no YUV in this frame, only MJPEG. -/
  yuvSize : UInt32
  flags : UInt32
  replyMagic : UInt32
  replyData : UInt32
  replySeq : UInt32
  deriving DecidableEq, Repr

/-- A store to one of the words. -/
inductive Store where
  | magic (v : UInt32)
  | frameCount (v : UInt32)
  | yuvSize (v : UInt32)
  | flags (v : UInt32)
  | replyMagic (v : UInt32)
  | replyData (v : UInt32)
  | replySeq (v : UInt32)
  deriving DecidableEq, Repr

namespace MailboxRegs

def set (m : MailboxRegs) : Store → MailboxRegs
  | .magic v => { m with magic := v }
  | .frameCount v => { m with frameCount := v }
  | .yuvSize v => { m with yuvSize := v }
  | .flags v => { m with flags := v }
  | .replyMagic v => { m with replyMagic := v }
  | .replyData v => { m with replyData := v }
  | .replySeq v => { m with replySeq := v }

def setAll (m : MailboxRegs) (stores : List Store) : MailboxRegs := stores.foldl set m

@[simp] theorem setAll_nil (m : MailboxRegs) : m.setAll [] = m := rfl

@[simp] theorem setAll_cons (m : MailboxRegs) (s : Store) (ss : List Store) :
    m.setAll (s :: ss) = (m.set s).setAll ss := rfl

end MailboxRegs

/-- The arguments of `write` and `notify`. -/
structure Record where
  frameCount : UInt32
  yuvSize : UInt32
  flags : UInt32
  deriving DecidableEq, Repr

/-- The record a reader finds in the mailbox. -/
def MailboxRegs.record (m : MailboxRegs) : Record := ⟨m.frameCount, m.yuvSize, m.flags⟩

/-- `write`. -/
def write (r : Record) : List Store :=
  [.magic MAILBOX_MAGIC, .frameCount r.frameCount, .yuvSize r.yuvSize, .flags r.flags,
    .replyMagic 0, .replyData 0, .replySeq 0]

/-- `notify`, up to the doorbell. -/
def notify (r : Record) : List Store :=
  [.frameCount r.frameCount, .yuvSize r.yuvSize, .flags r.flags, .magic MAILBOX_MAGIC]

/-- `write_reply`, on the mailbox it reads `reply_seq` from. -/
def writeReply (m : MailboxRegs) (msg : UInt32) : List Store :=
  [.replyData msg, .replySeq (m.replySeq + 1), .replyMagic REPLY_MAGIC]

/-- `encode_dims`. -/
def encodeDims (w h : UInt32) : UInt32 := ((w &&& 0xFFF) <<< 20) ||| ((h &&& 0xFFF) <<< 8)

/-- `decode_dims`, on the reader's side. -/
def decodeDims (flags : UInt32) : UInt32 × UInt32 :=
  ((flags >>> 20) &&& 0xFFF, (flags >>> 8) &&& 0xFFF)

/-- The reader's test of `FLAG_YUV_READY`. -/
def yuvReady (flags : UInt32) : Bool := flags &&& FLAG_YUV_READY ≠ 0

theorem notify_record (m : MailboxRegs) (r : Record) : (m.setAll (notify r)).record = r := rfl

end Cvirtos.Ipc
