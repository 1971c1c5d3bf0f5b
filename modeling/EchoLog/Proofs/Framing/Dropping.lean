import EchoLog.Proofs.Framing.Cuts
/-!
# Framing that drops what follows a packet

When the bytes after a packet are dropped, the places where the chunks end do matter.  What comes of
chunks is told here by an `Intake`, without any framer: a chunk with a newline finishes one packet, its
bytes after that newline are dropped, and a chunk without one is carried on as a whole.  The first packet
or carried bytes over the limit are a failure, and nothing comes after it.

A framer that is drained after every chunk gives what its intake tells (`Framing.Shows.consume`).  All
that this needs of the policy is that it keeps no byte of these chunks after a packet, so a framer that
keeps such bytes gives the same, where no chunk has any.
-/

namespace EchoLog

/-- Cuts a chunk after its first newline, if it has one. -/
def firstLine? : Bytes → Option (Bytes × Bytes)
  | [] => none
  | b :: s =>
    if b = newline then some ([b], s)
    else
      match firstLine? s with
      | some (l, rest) => some (b :: l, rest)
      | none => none

theorem firstLine?_open {s : Bytes} (h : newline ∉ s) : firstLine? s = none := by
  induction s with
  | nil => rfl
  | cons b s ih =>
      have hb : b ≠ newline := fun e => h (e ▸ List.mem_cons_self)
      have hs : newline ∉ s := fun m => h (List.mem_cons_of_mem _ m)
      simp only [firstLine?, if_neg hb, ih hs]

theorem firstLine?_line {l : Bytes} (hl : IsLine l) (rest : Bytes) :
    firstLine? (l ++ rest) = some (l, rest) := by
  obtain ⟨body, hbody, rfl⟩ := hl
  induction body with
  | nil => rfl
  | cons b body ih =>
      have hb : b ≠ newline := fun e => hbody (e ▸ List.mem_cons_self)
      have hrest : newline ∉ body := fun m => hbody (List.mem_cons_of_mem _ m)
      simp only [List.cons_append, firstLine?, if_neg hb, ih hrest]

/-! ## The intake -/

/-- What has come of chunks: the packets, each with the bytes that were dropped after it, then the bytes
that are carried on, and the failure. -/
structure Intake where
  pieces : List (Bytes × Bytes) := []
  carried : Bytes := []
  failure : Option Failure := none
deriving DecidableEq, Repr

namespace Intake

/-- The packets, oldest first. -/
def packets (i : Intake) : List Bytes :=
  i.pieces.map Prod.fst

/-- All bytes of an intake, in the order in which they came. -/
def bytes (i : Intake) : Bytes :=
  i.pieces.flatMap (fun (packet, dropped) => packet ++ dropped) ++ i.carried

/-- Takes in one chunk. -/
def take (limit : Nat) (i : Intake) (chunk : Bytes) : Intake :=
  let oversized := { i with carried := i.carried ++ chunk, failure := some (.packetTooLarge limit) }
  match firstLine? chunk with
  | some (line, rest) =>
    if (i.carried ++ line).length ≤ limit then
      { pieces := i.pieces ++ [(i.carried ++ line, rest)] }
    else oversized
  | none =>
    if (i.carried ++ chunk).length ≤ limit then { i with carried := i.carried ++ chunk }
    else oversized

/-- Takes in chunks up to the first failure. -/
def consume (limit : Nat) : Intake → List Bytes → Intake
  | i, [] => i
  | i, chunk :: chunks => if i.failure.isSome then i else (i.take limit chunk).consume limit chunks

variable {limit : Nat} {i : Intake} {chunk : Bytes}

theorem take_open (h : newline ∉ chunk) :
    i.take limit chunk =
      if (i.carried ++ chunk).length ≤ limit then { i with carried := i.carried ++ chunk }
      else { i with carried := i.carried ++ chunk, failure := some (.packetTooLarge limit) } := by
  rw [take, firstLine?_open h]

theorem take_line {l rest : Bytes} (hl : IsLine l) :
    i.take limit (l ++ rest) =
      if (i.carried ++ l).length ≤ limit then { pieces := i.pieces ++ [(i.carried ++ l, rest)] }
      else { i with carried := i.carried ++ (l ++ rest), failure := some (.packetTooLarge limit) } := by
  rw [take, firstLine?_line hl]

/-- One chunk adds its bytes, and no others. -/
theorem bytes_take (limit : Nat) (i : Intake) (chunk : Bytes) :
    (i.take limit chunk).bytes = i.bytes ++ chunk := by
  rcases open_or_line chunk with hopen | ⟨l, rest, hl, rfl⟩
  · rw [take_open hopen]
    split <;> exact (List.append_assoc _ _ _).symm
  · rw [take_line hl]
    split
    · simp only [bytes, List.flatMap_append, List.flatMap_singleton, List.append_assoc, List.append_nil]
    · exact (List.append_assoc _ _ _).symm

/-- **All bytes that were taken in are accounted for**: all chunks, or those up to the failure. -/
theorem bytes_consume (limit : Nat) (chunks : List Bytes) :
    ∀ i : Intake, ∃ taken left, chunks = taken ++ left ∧
      (left ≠ [] → (i.consume limit chunks).failure.isSome = true) ∧
      (i.consume limit chunks).bytes = i.bytes ++ taken.flatten := by
  induction chunks with
  | nil =>
      intro i
      refine ⟨[], [], rfl, fun h => absurd rfl h, ?_⟩
      rw [List.flatten_nil, List.append_nil, consume]
  | cons chunk chunks ih =>
      intro i
      rw [consume]
      split
      · rename_i hfailed
        refine ⟨[], chunk :: chunks, rfl, fun _ => hfailed, ?_⟩
        rw [List.flatten_nil, List.append_nil]
      · obtain ⟨taken, left, hchunks, hleft, hbytes⟩ := ih (i.take limit chunk)
        refine ⟨chunk :: taken, left, congrArg (chunk :: ·) hchunks, hleft, ?_⟩
        rw [hbytes, bytes_take, List.flatten_cons, List.append_assoc]

end Intake

/-! ## Draining one chunk -/

/-- Whether a policy keeps nothing of a chunk after its first newline. -/
def Remainder.KeepsNothing (r : Remainder) (chunk : Bytes) : Prop :=
  ∀ cut ∈ firstLine? chunk, r.kept cut.2 = []

namespace Framer

variable {f : Framer} {buffer l rest : Bytes}

theorem drain_open (hb : newline ∉ buffer) (h : buffer.length ≤ f.limit) :
    f.drain buffer = ([], false, { f with searched := buffer.length }, buffer) := by
  rw [drain_look, look_open hb h]

theorem drain_oversized (h : f.look buffer = ⟨.oversized, f, buffer⟩) :
    f.drain buffer = ([], true, f, buffer) := by
  rw [drain_look, h]

/-- When nothing is kept after the first packet, there is no second. -/
theorem drain_line (ht : f.Tracks (l ++ rest)) (hl : IsLine l) (h : l.length ≤ f.limit)
    (hnothing : f.remainder.kept rest = []) :
    f.drain (l ++ rest) = ([l], false, f.rewind, []) := by
  have hempty : f.rewind.drain [] = ([], false, f.rewind, []) :=
    drain_open List.not_mem_nil (Nat.zero_le _)
  rw [drain_look, look_line ht hl h, hnothing]
  simp only [hempty]

end Framer

namespace Framing

/-- A framer at work shows what an intake tells; as long as it has not failed, it has searched all of its
buffer. -/
structure Shows (limit : Nat) (r : Remainder) (w : Framing) (i : Intake) : Prop where
  packets_eq : w.packets = i.packets
  buffer_eq : w.buffer = i.carried
  failure_eq : w.failure = i.failure
  framer_eq : i.failure = none → w.framer = ⟨i.carried.length, limit, r⟩
  carries : i.failure = none → newline ∉ i.carried

theorem shows_start (limit : Nat) (r : Remainder) : (start limit r).Shows limit r {} where
  packets_eq := rfl
  buffer_eq := rfl
  failure_eq := rfl
  framer_eq := fun _ => rfl
  carries := fun _ => List.not_mem_nil

variable {limit : Nat} {r : Remainder} {w : Framing} {i : Intake}

/-- **One chunk, fed and drained, does to a framer what it does to its intake.** -/
theorem Shows.take (h : w.Shows limit r i) (hgoes : i.failure = none) {chunk : Bytes}
    (hchunk : r.KeepsNothing chunk) : (w.feed chunk).drain.Shows limit r (i.take limit chunk) := by
  obtain ⟨hpackets, hbuffer, -, hframer, hcarries⟩ := h
  have hcarried := hcarries hgoes
  have hdrain : ∀ {packets stopped g rest},
      Framer.drain ⟨i.carried.length, limit, r⟩ (i.carried ++ chunk) = (packets, stopped, g, rest) →
      (w.feed chunk).drain =
        ⟨g, rest, i.packets ++ packets, if stopped then some g.tooLarge else none⟩ := by
    intro packets stopped g rest hd
    rw [← hframer hgoes, ← hbuffer] at hd
    rw [← hpackets]
    exact drain_eq (w := w.feed chunk) hd
  have htracks : (⟨i.carried.length, limit, r⟩ : Framer).Tracks (i.carried ++ chunk) :=
    Framer.Tracks.feed ⟨Nat.le_refl _, fun m => hcarried (List.mem_of_mem_take m)⟩ chunk
  rcases open_or_line chunk with hopen | ⟨l, rest, hl, rfl⟩
  · have hboth : newline ∉ i.carried ++ chunk := by
      intro m
      exact (List.mem_append.1 m).elim hcarried hopen
    rw [Intake.take_open hopen]
    by_cases hlimit : (i.carried ++ chunk).length ≤ limit
    · rw [if_pos hlimit, hdrain (Framer.drain_open hboth hlimit)]
      exact ⟨List.append_nil _, rfl, hgoes.symm, fun _ => rfl, fun _ => hboth⟩
    · have hlong := Framer.look_long_open (f := ⟨i.carried.length, limit, r⟩) hboth
        (Nat.lt_of_not_le hlimit)
      rw [if_neg hlimit, hdrain (Framer.drain_oversized hlong)]
      exact ⟨List.append_nil _, rfl, rfl, nofun, nofun⟩
  · have hline := hl.append hcarried
    have hnothing := hchunk (l, rest) (firstLine?_line hl rest)
    rw [← List.append_assoc] at htracks hdrain
    rw [Intake.take_line hl]
    by_cases hlimit : (i.carried ++ l).length ≤ limit
    · rw [if_pos hlimit, hdrain (Framer.drain_line htracks hline hlimit hnothing)]
      refine ⟨?_, rfl, rfl, fun _ => rfl, fun _ => List.not_mem_nil⟩
      simp only [Intake.packets, List.map_append, List.map_singleton]
    · have hlong := Framer.look_long_line htracks hline (Nat.lt_of_not_le hlimit)
      rw [if_neg hlimit, hdrain (Framer.drain_oversized hlong)]
      exact ⟨List.append_nil _, List.append_assoc _ _ _, rfl, nofun, nofun⟩

/-- **A framer drained after every chunk shows what its intake tells.** -/
theorem Shows.consume {chunks : List Bytes} (hchunks : ∀ chunk ∈ chunks, r.KeepsNothing chunk) :
    ∀ {w : Framing} {i : Intake}, w.Shows limit r i →
      (w.consume chunks).Shows limit r (i.consume limit chunks) := by
  induction chunks with
  | nil =>
      intro w i h
      exact h
  | cons chunk chunks ih =>
      intro w i h
      rw [Framing.consume, Intake.consume, h.failure_eq]
      cases hfailure : i.failure with
      | some _ => exact h
      | none =>
          have hrest := fun c m => hchunks c (List.mem_cons_of_mem _ m)
          exact ih hrest (h.take hfailure (hchunks chunk List.mem_cons_self))

end Framing

/-- **Framing that drops what follows a packet, chunk by chunk.**  After any chunks, each drained before
the next and up to the first failure, packets, buffer and failure are those of the intake.  All bytes of
the chunks up to there are in packets, dropped after one, or carried on, in this order.  And if no chunk
has bytes after its first newline, a framer that keeps such bytes gives the same. -/
theorem dropping_framing_is_intake (limit : Nat) (chunks : List Bytes) :
    let w := (Framing.start limit .drop).consume chunks
    let i := Intake.consume limit {} chunks
    (w.packets = i.packets ∧ w.buffer = i.carried ∧ w.failure = i.failure) ∧
    (∃ taken left, chunks = taken ++ left ∧ (left ≠ [] → w.failure.isSome = true) ∧
      taken.flatten = i.pieces.flatMap (fun (packet, dropped) => packet ++ dropped) ++ w.buffer) ∧
    ((∀ chunk ∈ chunks, ∀ cut ∈ firstLine? chunk, cut.2 = []) →
      let k := (Framing.start limit .keep).consume chunks
      k.packets = w.packets ∧ k.buffer = w.buffer ∧ k.failure = w.failure) := by
  intro w i
  have hdrops : ∀ chunk ∈ chunks, Remainder.drop.KeepsNothing chunk := fun _ _ _ _ => rfl
  have hw : w.Shows limit .drop i := (Framing.shows_start limit .drop).consume hdrops
  refine ⟨⟨hw.packets_eq, hw.buffer_eq, hw.failure_eq⟩, ?_, ?_⟩
  · obtain ⟨taken, left, hchunks, hleft, hbytes⟩ := Intake.bytes_consume limit chunks {}
    refine ⟨taken, left, hchunks, ?_, ?_⟩
    · rwa [hw.failure_eq]
    · rw [hw.buffer_eq]
      exact hbytes.symm
  · intro hends
    have hkeeps : ∀ chunk ∈ chunks, Remainder.keep.KeepsNothing chunk := hends
    have hk := (Framing.shows_start limit .keep).consume hkeeps
    exact ⟨hk.packets_eq.trans hw.packets_eq.symm, hk.buffer_eq.trans hw.buffer_eq.symm,
      hk.failure_eq.trans hw.failure_eq.symm⟩

/-- Three chunks without tails, of which the last makes the carried bytes too many. -/
theorem dropping_framing_is_intake_without_tails :
    let chunks := [utf8 "on", utf8 "e\n", utf8 "seven"]
    let w := (Framing.start 4 .drop).consume chunks
    let k := (Framing.start 4 .keep).consume chunks
    (w.packets = [utf8 "one\n"] ∧ w.buffer = utf8 "seven" ∧ w.failure = some (.packetTooLarge 4)) ∧
      k.packets = w.packets ∧ k.buffer = w.buffer ∧ k.failure = w.failure := by
  have h := dropping_framing_is_intake 4 [utf8 "on", utf8 "e\n", utf8 "seven"]
  exact ⟨h.1, h.2.2 (by decide)⟩

end EchoLog
