import EchoLog.Bytes
import EchoLog.Failure
/-!
# Cutting packets from a stream

A framer looks for the next newline in a buffer of received bytes.  It remembers how far it has
looked, so that a long packet that arrives in pieces is searched once.  The remembered position is
part of what a caller can see: a buffer emptied without `Framer.rewind` is searched from there on.
-/

namespace EchoLog

/-- What happens to the bytes that follow a newline in the same buffer. -/
inductive Remainder where
  /-- They start the next packet. -/
  | keep
  /-- They are dropped. -/
  | drop
deriving DecidableEq, Repr

/-- The policy of the setting that asks for bytes to be kept. -/
def Remainder.ofKeep (keep : Bool) : Remainder :=
  if keep then .keep else .drop

/-- A framer: how far the buffer has been searched, the longest packet allowed and the policy for the
bytes after a packet. -/
structure Framer where
  searched : Nat := 0
  limit : Nat
  remainder : Remainder
deriving DecidableEq, Repr

/-- What one look at the buffer gives. -/
inductive Cut where
  /-- A whole packet, its newline included. -/
  | packet (bytes : Bytes)
  /-- No newline yet. -/
  | incomplete
  /-- The packet, finished or not, is over the limit. -/
  | oversized
deriving DecidableEq, Repr

/-- A look at the buffer: what it gave, the framer after it and the buffer after it. -/
structure Look where
  cut : Cut
  framer : Framer
  buffer : Bytes

namespace Framer

/-- Forgets how far the buffer has been searched. -/
def rewind (f : Framer) : Framer :=
  { f with searched := 0 }

/-- The length of the packet that the search finds, its newline included.  The search goes on where
the last one ended; past the end of the buffer it finds nothing. -/
def found? (f : Framer) (buffer : Bytes) : Option Nat :=
  ((buffer.drop f.searched).findIdx? (· == newline)).map fun offset => f.searched + offset + 1

/-- Looks once for a packet.  A packet over the limit leaves framer and buffer as they were. -/
def look (f : Framer) (buffer : Bytes) : Look :=
  match f.found? buffer with
  | some length =>
    if length > f.limit then ⟨.oversized, f, buffer⟩
    else
      let rest := match f.remainder with
        | .keep => buffer.drop length
        | .drop => []
      ⟨.packet (buffer.take length), f.rewind, rest⟩
  | none =>
    let held := buffer.length
    if held > f.limit then ⟨.oversized, f, buffer⟩
    else ⟨.incomplete, { f with searched := held }, buffer⟩

/-- The failure of an oversized packet. -/
def tooLarge (f : Framer) : Failure :=
  .packetTooLarge f.limit

/-- The last look once the stream has ended: bytes that are left and make no packet are a failure. -/
def lookAtEnd (f : Framer) (buffer : Bytes) : Except Failure (Option Bytes) × Framer × Bytes :=
  let l := f.look buffer
  let answer := match l.cut with
    | .packet p => .ok (some p)
    | .oversized => .error f.tooLarge
    | .incomplete =>
      if l.buffer.isEmpty then .ok none
      else .error (.io (.custom .other "bytes remaining on stream"))
  (answer, l.framer, l.buffer)

/-- A packet takes at least its newline out of the buffer. -/
theorem length_lt_of_packet {f : Framer} {buffer p : Bytes} (h : (f.look buffer).cut = .packet p) :
    (f.look buffer).buffer.length < buffer.length := by
  unfold look at h ⊢
  cases hf : f.found? buffer with
  | none => rw [hf] at h; dsimp only at h; split at h <;> simp at h
  | some length =>
    rw [hf] at h
    dsimp only at h ⊢
    obtain ⟨offset, ho, rfl⟩ := Option.map_eq_some_iff.1 hf
    have hlt := (List.findIdx?_eq_some_iff_findIdx_eq.1 ho).1
    rw [List.length_drop] at hlt
    split at h
    · simp at h
    · rename_i hle
      rw [if_neg hle]
      cases f.remainder
      · simp only [List.length_drop]; omega
      · simp only [List.length_nil]; omega

/-- All packets that can be cut from the buffer, and whether an oversized one stopped the cutting. -/
def drain (f : Framer) (buffer : Bytes) : List Bytes × Bool × Framer × Bytes :=
  match h : (f.look buffer).cut with
  | .packet p =>
    have := length_lt_of_packet h
    let (packets, stopped, g, rest) := (f.look buffer).framer.drain (f.look buffer).buffer
    (p :: packets, stopped, g, rest)
  | .incomplete => ([], false, (f.look buffer).framer, (f.look buffer).buffer)
  | .oversized => ([], true, (f.look buffer).framer, (f.look buffer).buffer)
termination_by buffer.length

end Framer

end EchoLog
