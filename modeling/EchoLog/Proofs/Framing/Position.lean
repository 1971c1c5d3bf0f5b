import EchoLog.Proofs.Framing.Look
/-!
# A remembered position changes no answer

A framer goes on searching where its last search ended.  Here it is compared with a `Searcher`, which
remembers nothing and looks for the first newline of the whole buffer every time.  Both are put through
the same operations, and what is compared is everything that their callers can see: the packets, the
failures and the buffer after every single operation.

The two agree, also after failures, as long as the framer is rewound before the next look when its buffer
was emptied or shortened (`isTidy`).  Until then the part of the buffer that was searched holds no newline
(`Framer.Tracks`), which is all that the position is trusted for.

Where the framer is not rewound the two may differ: a newline that arrives before the position is not
seen.  Still no look reaches outside the buffer (`Framer.strictLook?_eq`), and what it gives is a packet.
-/

namespace EchoLog

/-- One thing that is done with a framer and its buffer. -/
inductive Operation where
  /-- Bytes arrive. -/
  | feed (chunk : Bytes)
  /-- One look is taken. -/
  | look
  /-- The last look, once the stream has ended. -/
  | lookAtEnd
  /-- Looks are taken until there is nothing more to find. -/
  | drain
  | rewind
  /-- The framer is replaced by a copy of itself. -/
  | copy
  /-- The buffer is emptied. -/
  | clear
  /-- The buffer is cut to a length. -/
  | shorten (length : Nat)
deriving DecidableEq, Repr

/-- What the caller of an operation gets to see: packets, a failure, and the buffer after it. -/
structure Output where
  packets : List Bytes := []
  failure : Option Failure := none
  buffer : Bytes
deriving DecidableEq, Repr

/-- What the caller of a look gets to see. -/
def Output.ofCut (limit : Nat) (buffer : Bytes) : Cut → Output
  | .packet p => { packets := [p], buffer := buffer }
  | .incomplete => { buffer := buffer }
  | .oversized => { failure := some (.packetTooLarge limit), buffer := buffer }

@[simp]
theorem Output.buffer_ofCut (limit : Nat) (buffer : Bytes) (cut : Cut) :
    (Output.ofCut limit buffer cut).buffer = buffer := by
  cases cut <;> rfl

/-- One packet more in front. -/
def Output.after (t : Output) (p : Bytes) : Output :=
  { t with packets := p :: t.packets }

namespace Operation

/-- Whether an operation takes looks. -/
def takesLooks : Operation → Bool
  | look | lookAtEnd | drain => true
  | feed _ | rewind | copy | clear | shorten _ => false

/-- Whether the position is out of date after an operation, as far as can be told from `stale`, whether
it was so before: taking bytes away makes it so, and a rewind makes up for it. -/
def leavesStale (stale : Bool) : Operation → Bool
  | clear | shorten _ => true
  | rewind => false
  | feed _ | look | lookAtEnd | drain | copy => stale

end Operation

/-- Whether no look is taken while the position is out of date. -/
def isTidy : (stale : Bool) → List Operation → Bool
  | _, [] => true
  | stale, op :: ops => !(stale && op.takesLooks) && isTidy (op.leavesStale stale) ops

/-! ## The framer at its operations -/

namespace Framer

/-- Performs an operation. -/
def perform (f : Framer) (buffer : Bytes) : Operation → Output × Framer
  | .feed chunk => ({ buffer := buffer ++ chunk }, f)
  | .look =>
    let l := f.look buffer
    (.ofCut f.limit l.buffer l.cut, l.framer)
  | .lookAtEnd =>
    match f.lookAtEnd buffer with
    | (.ok found, g, rest) => ({ packets := found.toList, buffer := rest }, g)
    | (.error failure, g, rest) => ({ failure := some failure, buffer := rest }, g)
  | .drain =>
    let (packets, stopped, g, rest) := f.drain buffer
    ({ packets := packets, failure := if stopped then some g.tooLarge else none, buffer := rest }, g)
  | .rewind => ({ buffer := buffer }, f.rewind)
  | .copy => ({ buffer := buffer }, ⟨f.searched, f.limit, f.remainder⟩)
  | .clear => ({ buffer := [] }, f)
  | .shorten length => ({ buffer := buffer.take length }, f)

/-- All that the callers of operations get to see, in their order. -/
def transcript (f : Framer) (buffer : Bytes) : List Operation → List Output
  | [] => []
  | op :: ops =>
    let done := f.perform buffer op
    done.1 :: done.2.transcript done.1.buffer ops

/-- The framer and its buffer after operations. -/
def after (f : Framer) (buffer : Bytes) : List Operation → Framer × Bytes
  | [] => (f, buffer)
  | op :: ops =>
    let done := f.perform buffer op
    done.2.after done.1.buffer ops

end Framer

/-! ## The searcher at the same operations -/

/-- A framer that remembers nothing. -/
structure Searcher where
  limit : Nat
  remainder : Remainder
deriving DecidableEq, Repr

namespace Searcher

/-- Looks for the first newline of the buffer: what that gives, and the buffer after it. -/
def look (p : Searcher) (buffer : Bytes) : Cut × Bytes :=
  match buffer.findIdx? (· == newline) with
  | some place =>
    if place + 1 > p.limit then (.oversized, buffer)
    else (.packet (buffer.take (place + 1)), p.remainder.kept (buffer.drop (place + 1)))
  | none => if buffer.length > p.limit then (.oversized, buffer) else (.incomplete, buffer)

/-- The last look once the stream has ended: bytes that are left and make no packet are a failure. -/
def lookAtEnd (p : Searcher) (buffer : Bytes) : Output :=
  match p.look buffer with
  | (.incomplete, rest) =>
    { failure := if rest.isEmpty then none else some (.io (.custom .other "bytes remaining on stream"))
      buffer := rest }
  | (cut, rest) => .ofCut p.limit rest cut

theorem length_lt_of_packet {p : Searcher} {buffer q : Bytes} (h : (p.look buffer).1 = .packet q) :
    (p.look buffer).2.length < buffer.length := by
  unfold look at h ⊢
  split at h
  · rename_i place hplace
    have hlt := (List.findIdx?_eq_some_iff_findIdx_eq.1 hplace).1
    split at h
    · cases h
    · rename_i hle
      rw [if_neg hle]
      cases p.remainder
      · simp only [Remainder.kept, List.length_drop]
        omega
      · simp only [Remainder.kept, List.length_nil]
        omega
  · split at h <;> cases h

/-- Looks until there is nothing more to find. -/
def drain (p : Searcher) (buffer : Bytes) : Output :=
  match h : (p.look buffer).1 with
  | .packet q =>
    have := length_lt_of_packet h
    (p.drain (p.look buffer).2).after q
  | cut => .ofCut p.limit (p.look buffer).2 cut
termination_by buffer.length

/-- A drain takes one look, and goes on after a packet. -/
theorem drain_look (p : Searcher) (buffer : Bytes) :
    p.drain buffer =
      match (p.look buffer).1 with
      | .packet q => (p.drain (p.look buffer).2).after q
      | cut => .ofCut p.limit (p.look buffer).2 cut := by
  rw [drain]
  split <;> rename_i hcut <;> simp only [hcut]

/-- Performs an operation. -/
def perform (p : Searcher) (buffer : Bytes) : Operation → Output
  | .feed chunk => { buffer := buffer ++ chunk }
  | .look => .ofCut p.limit (p.look buffer).2 (p.look buffer).1
  | .lookAtEnd => p.lookAtEnd buffer
  | .drain => p.drain buffer
  | .rewind => { buffer := buffer }
  | .copy => { buffer := buffer }
  | .clear => { buffer := [] }
  | .shorten length => { buffer := buffer.take length }

/-- All that the callers of operations get to see, in their order. -/
def transcript (p : Searcher) (buffer : Bytes) : List Operation → List Output
  | [] => []
  | op :: ops => p.perform buffer op :: p.transcript (p.perform buffer op).buffer ops

end Searcher

/-- The searcher with the limit and the policy of a framer. -/
def Framer.searcher (f : Framer) : Searcher :=
  ⟨f.limit, f.remainder⟩

/-! ## One look -/

namespace Framer

variable {f : Framer} {buffer : Bytes}

theorem look_found {length : Nat} (h : f.found? buffer = some length) :
    f.look buffer =
      if length > f.limit then ⟨.oversized, f, buffer⟩
      else ⟨.packet (buffer.take length), f.rewind, f.remainder.kept (buffer.drop length)⟩ := by
  rw [look, h]
  cases f.remainder <;> rfl

theorem look_not_found (h : f.found? buffer = none) :
    f.look buffer =
      if buffer.length > f.limit then ⟨.oversized, f, buffer⟩
      else ⟨.incomplete, { f with searched := buffer.length }, buffer⟩ := by
  rw [look, h]

/-- The search finds the first newline of the buffer, wherever it starts, if it does not start behind
that newline. -/
theorem found?_eq (ht : f.Tracks buffer) :
    f.found? buffer = (buffer.findIdx? (· == newline)).map (· + 1) := by
  rcases open_or_line buffer with hb | ⟨l, rest, hl, rfl⟩
  · rw [found?_open f hb, findIdx?_open hb, Option.map_none]
  · rw [found?_line ht hl]
    obtain ⟨body, hbody, rfl⟩ := hl
    rw [List.append_assoc, List.singleton_append, findIdx?_newline hbody, List.length_append]
    rfl

/-- **A look gives what a look without memory gives.** -/
theorem look_eq_searcher (ht : f.Tracks buffer) :
    ((f.look buffer).cut, (f.look buffer).buffer) = f.searcher.look buffer := by
  have hfound := found?_eq ht
  rw [Searcher.look, searcher]
  cases hplace : buffer.findIdx? (· == newline) with
  | some place =>
      rw [hplace, Option.map_some] at hfound
      rw [look_found hfound]
      by_cases hlong : place + 1 > f.limit <;> simp only [hlong, if_true, if_false]
  | none =>
      rw [hplace, Option.map_none] at hfound
      rw [look_not_found hfound]
      by_cases hlong : buffer.length > f.limit <;> simp only [hlong, if_true, if_false]

theorem cut_eq_searcher (ht : f.Tracks buffer) : (f.look buffer).cut = (f.searcher.look buffer).1 :=
  congrArg Prod.fst (look_eq_searcher ht)

theorem buffer_eq_searcher (ht : f.Tracks buffer) :
    (f.look buffer).buffer = (f.searcher.look buffer).2 :=
  congrArg Prod.snd (look_eq_searcher ht)

theorem searcher_look (f : Framer) (buffer : Bytes) : (f.look buffer).framer.searcher = f.searcher := by
  obtain ⟨hlimit, hremainder⟩ := look_framer f buffer
  rw [searcher, hlimit, hremainder]
  rfl

/-! ## One operation -/

theorem lookAtEnd_output (ht : f.Tracks buffer) :
    (f.perform buffer .lookAtEnd).1 = f.searcher.lookAtEnd buffer := by
  rw [perform, lookAtEnd, Searcher.lookAtEnd, ← look_eq_searcher ht]
  cases (f.look buffer).cut with
  | packet p => rfl
  | oversized => rfl
  | incomplete =>
      dsimp only
      cases (f.look buffer).buffer.isEmpty <;> rfl

theorem lookAtEnd_leaves (f : Framer) (buffer : Bytes) :
    (f.perform buffer .lookAtEnd).2 = (f.look buffer).framer ∧
      (f.perform buffer .lookAtEnd).1.buffer = (f.look buffer).buffer := by
  rw [perform]
  split <;> rename_i hend <;>
    exact ⟨(congrArg (·.2.1) hend).symm, (congrArg (·.2.2) hend).symm⟩

/-- Draining takes one look, and goes on after a packet. -/
theorem perform_drain (f : Framer) (buffer : Bytes) :
    f.perform buffer .drain =
      match (f.look buffer).cut with
      | .packet q =>
        let (output, g) := (f.look buffer).framer.perform (f.look buffer).buffer .drain
        (output.after q, g)
      | cut =>
        (.ofCut (f.look buffer).framer.limit (f.look buffer).buffer cut, (f.look buffer).framer) := by
  simp only [perform, drain_look f buffer]
  cases (f.look buffer).cut <;> rfl

/-- Draining gives what draining without memory gives, and leaves a framer that tracks its buffer. -/
theorem drain_output {f : Framer} {buffer : Bytes} (ht : f.Tracks buffer) :
    (f.perform buffer .drain).1 = f.searcher.drain buffer ∧
      (f.perform buffer .drain).2.Tracks (f.perform buffer .drain).1.buffer := by
  -- every packet makes the buffer shorter
  induction hn : buffer.length using Nat.strong_induction_on generalizing f buffer with
  | _ n ih =>
      rw [perform_drain, Searcher.drain_look, ← cut_eq_searcher ht, ← buffer_eq_searcher ht]
      cases hcut : (f.look buffer).cut with
      | packet q =>
          obtain ⟨houtput, htracks⟩ := ih (f.look buffer).buffer.length
            (hn ▸ length_lt_of_packet hcut) ht.look rfl
          rw [searcher_look] at houtput
          exact ⟨congrArg (Output.after · q) houtput, htracks⟩
      | incomplete => exact ⟨rfl, ht.look⟩
      | oversized =>
          have hlimit := (look_framer f buffer).1
          exact ⟨congrArg (Output.ofCut · (f.look buffer).buffer .oversized) hlimit, ht.look⟩

/-- An operation changes neither the limit nor the policy. -/
theorem searcher_perform (f : Framer) (buffer : Bytes) (op : Operation) :
    (f.perform buffer op).2.searcher = f.searcher := by
  cases op with
  | feed | rewind | copy | clear | shorten => rfl
  | look => exact searcher_look f buffer
  | lookAtEnd => rw [(lookAtEnd_leaves f buffer).1, searcher_look]
  | drain =>
      induction hn : buffer.length using Nat.strong_induction_on generalizing f buffer with
      | _ n ih =>
          rw [perform_drain]
          cases hcut : (f.look buffer).cut with
          | packet q =>
              have hrest := ih (f.look buffer).buffer.length (hn ▸ length_lt_of_packet hcut)
                (f.look buffer).framer (f.look buffer).buffer rfl
              rwa [searcher_look] at hrest
          | incomplete | oversized => exact searcher_look f buffer

/-- **One operation tells what it tells without memory**, if the position is right where it takes looks. -/
theorem perform_output {op : Operation} (ht : op.takesLooks = true → f.Tracks buffer) :
    (f.perform buffer op).1 = f.searcher.perform buffer op := by
  cases op with
  | feed | rewind | copy | clear | shorten => rfl
  | look =>
      rw [Searcher.perform, ← cut_eq_searcher (ht rfl), ← buffer_eq_searcher (ht rfl)]
      rfl
  | lookAtEnd => exact lookAtEnd_output (ht rfl)
  | drain => exact (drain_output (ht rfl)).1

/-- **One operation leaves a right position**, unless it takes bytes away. -/
theorem Tracks.perform {op : Operation} {stale : Bool} (ht : stale = false → f.Tracks buffer)
    (hleft : op.leavesStale stale = false) :
    (f.perform buffer op).2.Tracks (f.perform buffer op).1.buffer := by
  cases op with
  | feed chunk => exact (ht hleft).feed chunk
  | rewind => exact tracks_of_searched_zero rfl buffer
  | copy => exact ht hleft
  | clear | shorten => cases hleft
  | look =>
      rw [Framer.perform, Output.buffer_ofCut]
      exact (ht hleft).look
  | lookAtEnd =>
      obtain ⟨hframer, hbuffer⟩ := lookAtEnd_leaves f buffer
      rw [hframer, hbuffer]
      exact (ht hleft).look
  | drain => exact (drain_output (ht hleft)).2

/-! ## Runs -/

/-- **A tidy run tells what it tells without memory.** -/
theorem transcript_of_isTidy {ops : List Operation} :
    ∀ {f : Framer} {buffer : Bytes} {stale : Bool}, (stale = false → f.Tracks buffer) →
      isTidy stale ops = true → f.transcript buffer ops = f.searcher.transcript buffer ops := by
  induction ops with
  | nil =>
      intro f buffer stale _ _
      rfl
  | cons op ops ih =>
      intro f buffer stale ht htidy
      rw [isTidy, Bool.and_eq_true, Bool.not_eq_true'] at htidy
      obtain ⟨hnow, hlater⟩ := htidy
      have hlook : op.takesLooks = true → f.Tracks buffer := by
        intro h
        rw [h, Bool.and_true] at hnow
        exact ht hnow
      have hrest := ih (fun hleft => Tracks.perform ht hleft) hlater
      rw [searcher_perform, perform_output hlook] at hrest
      rw [transcript, Searcher.transcript, perform_output hlook]
      exact congrArg (_ :: ·) hrest

/-- Limit and policy are the same all through a run. -/
theorem searcher_after (ops : List Operation) :
    ∀ (f : Framer) (buffer : Bytes), (f.after buffer ops).1.searcher = f.searcher := by
  induction ops with
  | nil =>
      intro f buffer
      rfl
  | cons op ops ih =>
      intro f buffer
      rw [after]
      exact (ih _ _).trans (searcher_perform f buffer op)

end Framer

/-! ## Within the buffer -/

/-- The bytes from a place on; nothing is outside the buffer. -/
def tailFrom? (buffer : Bytes) (start : Nat) : Option Bytes :=
  if start ≤ buffer.length then some (buffer.drop start) else none

/-- Splits the buffer at a place in it. -/
def splitAt? (buffer : Bytes) (place : Nat) : Option (Bytes × Bytes) :=
  if place ≤ buffer.length then some (buffer.take place, buffer.drop place) else none

namespace Framer

variable {f : Framer} {buffer : Bytes}

/-- A look that gives nothing at all where it would index or split outside the buffer. -/
def strictLook? (f : Framer) (buffer : Bytes) : Option Look := do
  let start := min f.searched buffer.length
  let tail ← tailFrom? buffer start
  match tail.findIdx? (· == newline) with
  | some offset =>
    let length := start + offset + 1
    if length > f.limit then some ⟨.oversized, f, buffer⟩
    else do
      let (packet, rest) ← splitAt? buffer length
      some ⟨.packet packet, f.rewind, f.remainder.kept rest⟩
  | none =>
    if buffer.length > f.limit then some ⟨.oversized, f, buffer⟩
    else some ⟨.incomplete, { f with searched := buffer.length }, buffer⟩

/-- What a search finds ends in the buffer, with a newline. -/
theorem take_of_found? {length : Nat} (h : f.found? buffer = some length) :
    length ≤ buffer.length ∧ ∃ body, buffer.take length = body ++ [newline] := by
  obtain ⟨offset, hoffset, rfl⟩ := Option.map_eq_some_iff.1 h
  obtain ⟨hlt, hnewline, -⟩ := List.findIdx?_eq_some_iff_getElem.1 hoffset
  rw [List.length_drop] at hlt
  have hplace : f.searched + offset < buffer.length := by omega
  rw [List.getElem_drop, beq_iff_eq] at hnewline
  refine ⟨hplace, buffer.take (f.searched + offset), ?_⟩
  rw [← hnewline, List.take_append_getElem hplace]

/-- **No look reaches outside the buffer**, wherever it starts. -/
theorem strictLook?_eq (f : Framer) (buffer : Bytes) : f.strictLook? buffer = some (f.look buffer) := by
  have hstart : min f.searched buffer.length ≤ buffer.length := Nat.min_le_right _ _
  simp only [strictLook?, tailFrom?, if_pos hstart, ← List.drop_eq_drop_min, Option.bind_eq_bind,
    Option.bind_some]
  cases hoffset : (buffer.drop f.searched).findIdx? (· == newline) with
  | none =>
      have hfound : f.found? buffer = none := by rw [found?, hoffset, Option.map_none]
      rw [look_not_found hfound]
      exact (apply_ite some _ _ _).symm
  | some offset =>
      have hfound : f.found? buffer = some (f.searched + offset + 1) := by
        rw [found?, hoffset, Option.map_some]
      obtain ⟨hin, -⟩ := take_of_found? hfound
      have hmin : min f.searched buffer.length = f.searched := by omega
      rw [look_found hfound, apply_ite some]
      simp only [hmin, splitAt?, if_pos hin, Option.bind_some]

/-- **A packet is a beginning of the buffer that ends in a newline and keeps the limit**, wherever the
search started. -/
theorem packet_of_look {p : Bytes} (h : (f.look buffer).cut = .packet p) :
    p <+: buffer ∧ (∃ body, p = body ++ [newline]) ∧ p.length ≤ f.limit := by
  cases hfound : f.found? buffer with
  | none =>
      rw [look_not_found hfound] at h
      split at h <;> cases h
  | some length =>
      obtain ⟨-, hline⟩ := take_of_found? hfound
      rw [look_found hfound] at h
      split at h
      · cases h
      · rename_i hshort
        cases h
        refine ⟨List.take_prefix _ _, hline, ?_⟩
        rw [List.length_take]
        omega

end Framer

/-- **Remembering a place changes no answer.**  In every run that rewinds the framer before it looks
again at a buffer that was emptied or shortened, every packet, every failure and every buffer is the same
as without memory, also after failures.  And in every run at all, however the buffer was changed, a look
stays within the buffer, and a packet that it gives is a beginning of the buffer with at least the
newline in which it ends, no longer than the limit. -/
theorem remembered_place_changes_no_answer (limit : Nat) (remainder : Remainder) (ops : List Operation) :
    (isTidy false ops = true →
      Framer.transcript ⟨0, limit, remainder⟩ [] ops =
        Searcher.transcript ⟨limit, remainder⟩ [] ops) ∧
    (let (f, buffer) := Framer.after ⟨0, limit, remainder⟩ [] ops
     f.strictLook? buffer = some (f.look buffer) ∧
       ∀ p, (f.look buffer).cut = .packet p →
         p ≠ [] ∧ p <+: buffer ∧ [newline] <:+ p ∧ p.length ≤ limit) := by
  refine ⟨?_, Framer.strictLook?_eq _ _, ?_⟩
  · intro htidy
    exact Framer.transcript_of_isTidy (fun _ => Framer.tracks_of_searched_zero rfl []) htidy
  · intro p hp
    obtain ⟨hpre, ⟨body, hbody⟩, hlimit⟩ := Framer.packet_of_look hp
    have hsame : (Framer.after ⟨0, limit, remainder⟩ [] ops).1.limit = limit :=
      congrArg Searcher.limit (Framer.searcher_after ops _ _)
    refine ⟨?_, hpre, ⟨body, hbody.symm⟩, hsame ▸ hlimit⟩
    rw [hbody]
    exact List.append_ne_nil_of_right_ne_nil body (List.cons_ne_nil _ _)

/-- A run past a packet over the limit, an emptied buffer and a packet found in two looks. -/
def recoveryRun : List Operation :=
  [.feed (utf8 "one\ntwo and"), .look, .look, .drain, .clear, .feed (utf8 "si"), .rewind, .copy, .look,
    .feed (utf8 "x\nrest"), .look, .lookAtEnd]

theorem remembered_place_changes_no_answer_in_recovery :
    isTidy false recoveryRun = true ∧
      Framer.transcript ⟨0, 4, .keep⟩ [] recoveryRun =
        Searcher.transcript ⟨4, .keep⟩ [] recoveryRun :=
  have htidy : isTidy false recoveryRun = true := by decide
  ⟨htidy, (remembered_place_changes_no_answer 4 .keep recoveryRun).1 htidy⟩

/-- Without a rewind the place is behind a newline, and its packet stays in the buffer. -/
example :
    let ops := [.feed (utf8 "abc"), .look, .clear, .feed (utf8 "a\nb"), .look]
    Framer.transcript ⟨0, 4, .keep⟩ [] ops ≠ Searcher.transcript ⟨4, .keep⟩ [] ops := by
  decide

end EchoLog
