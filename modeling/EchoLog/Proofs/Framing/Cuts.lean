import EchoLog.Proofs.Framing.Look
/-!
# Framing does not depend on how a stream is cut

A stream reaches a framer in chunks, and somebody decides when to look.  `Framing` is a framer at work
on its buffer, with the packets it has given so far; a schedule is a list of `Move`s, made one after
another up to the first failure.

Two things are proved of a framer that keeps the bytes after a packet.  Under every schedule the
packets are the first lines of the stream, and packets, buffer and what was not fed yet are the whole
stream (`Accounts`, an invariant of single moves).  And when the buffer is drained after every chunk,
the outcome is computed from the stream alone (`settled`, `consume_settled`): where the chunks end has
no part in it.  `framing_independent_of_cuts` states both.
-/

namespace EchoLog

/-- One thing that is done with a framer and its buffer. -/
inductive Move where
  /-- Bytes arrive. -/
  | feed (chunk : Bytes)
  /-- One look is taken. -/
  | look

/-- The bytes that a list of moves feeds. -/
def Move.fed : List Move → Bytes
  | [] => []
  | .feed chunk :: moves => chunk ++ fed moves
  | .look :: moves => fed moves

theorem Move.fed_append (moves more : List Move) :
    Move.fed (moves ++ more) = Move.fed moves ++ Move.fed more := by
  induction moves with
  | nil => rfl
  | cons m moves ih =>
      cases m with
      | feed chunk => rw [List.cons_append, fed, ih, fed, List.append_assoc]
      | look => exact ih

/-- A framer at work: its buffer, the packets it has given, oldest first, and the failure that it
stopped with. -/
structure Framing where
  framer : Framer
  buffer : Bytes := []
  packets : List Bytes := []
  failure : Option Failure := none

namespace Framing

/-- A fresh framer with an empty buffer. -/
def start (limit : Nat) (remainder : Remainder) : Framing :=
  { framer := ⟨0, limit, remainder⟩ }

/-- Bytes arrive. -/
def feed (w : Framing) (chunk : Bytes) : Framing :=
  { w with buffer := w.buffer ++ chunk }

/-- Takes one look. -/
def look (w : Framing) : Framing :=
  let l := w.framer.look w.buffer
  match l.cut with
  | .packet p => ⟨l.framer, l.buffer, w.packets ++ [p], none⟩
  | .incomplete => ⟨l.framer, l.buffer, w.packets, none⟩
  | .oversized => ⟨l.framer, l.buffer, w.packets, some l.framer.tooLarge⟩

/-- Makes one move. -/
def move (w : Framing) : Move → Framing
  | .feed chunk => w.feed chunk
  | .look => w.look

/-- Makes moves up to the first failure, and tells which were not made. -/
def run : Framing → List Move → Framing × List Move
  | w, [] => (w, [])
  | w, m :: moves => if w.failure.isSome then (w, m :: moves) else (w.move m).run moves

/-- Looks until there is nothing more to find. -/
def drain (w : Framing) : Framing :=
  let (packets, stopped, g, rest) := w.framer.drain w.buffer
  ⟨g, rest, w.packets ++ packets, if stopped then some g.tooLarge else none⟩

/-- Feeds chunks and drains the buffer after each of them, up to the first failure. -/
def consume : Framing → List Bytes → Framing
  | w, [] => w
  | w, chunk :: chunks => if w.failure.isSome then w else (w.feed chunk).drain.consume chunks

/-! ## Any schedule -/

/-- The account of a framer that has been fed `s`: its packets are lines, nothing is lost between
packets and buffer, and the search is where it should be. -/
structure Accounts (limit : Nat) (w : Framing) (s : Bytes) : Prop where
  keeps : w.framer.remainder = .keep
  limit_eq : w.framer.limit = limit
  tracks : w.framer.Tracks w.buffer
  isLine : ∀ p ∈ w.packets, IsLine p
  total : w.packets.flatten ++ w.buffer = s
  failure_eq : ∀ f, w.failure = some f → f = .packetTooLarge limit

theorem accounts_start (limit : Nat) : (start limit .keep).Accounts limit [] where
  keeps := rfl
  limit_eq := rfl
  tracks := Framer.tracks_of_searched_zero rfl _
  isLine := fun _ m => absurd m List.not_mem_nil
  total := rfl
  failure_eq := by
    intro f hf
    cases hf

theorem Accounts.feed {limit : Nat} {w : Framing} {s : Bytes} (h : w.Accounts limit s)
    (chunk : Bytes) : (w.feed chunk).Accounts limit (s ++ chunk) where
  keeps := h.keeps
  limit_eq := h.limit_eq
  tracks := h.tracks.feed chunk
  isLine := h.isLine
  total := by rw [← h.total, List.append_assoc]; rfl
  failure_eq := h.failure_eq

theorem Accounts.look {limit : Nat} {w : Framing} {s : Bytes} (h : w.Accounts limit s) :
    w.look.Accounts limit s := by
  have ht := h.tracks.look
  obtain ⟨hlim, hrem⟩ := Framer.look_framer w.framer w.buffer
  rcases Framer.look_cases h.tracks with ⟨l, rest, hl, -, hb, e⟩ | ⟨-, -, e⟩ | ⟨-, e⟩
  all_goals
    rw [e] at ht hlim hrem
    simp only [Framing.look, e]
  · refine ⟨hrem.trans h.keeps, hlim.trans h.limit_eq, ht, ?_, ?_, by simp⟩
    · intro p hp
      rcases List.mem_append.1 hp with hp | hp
      · exact h.isLine p hp
      · exact List.mem_singleton.1 hp ▸ hl
    · rw [h.keeps, Remainder.kept, List.flatten_append, List.flatten_singleton, List.append_assoc,
        ← hb, h.total]
  · exact ⟨h.keeps, h.limit_eq, ht, h.isLine, h.total, by simp⟩
  · refine ⟨h.keeps, h.limit_eq, ht, h.isLine, h.total, ?_⟩
    intro f hf
    rw [← Option.some.inj hf, Framer.tooLarge, h.limit_eq]

/-- The moves that were made are accounted for, and those that were not are still to come. -/
theorem Accounts.run {limit : Nat} (moves : List Move) :
    ∀ {w : Framing} {s : Bytes}, w.Accounts limit s →
      ∃ t, t ++ Move.fed (w.run moves).2 = s ++ Move.fed moves ∧ (w.run moves).1.Accounts limit t := by
  induction moves with
  | nil =>
      intro w s h
      exact ⟨s, rfl, h⟩
  | cons m moves ih =>
      intro w s h
      rw [Framing.run]
      split
      · -- a failed framer makes no move, and all moves are left
        exact ⟨s, rfl, h⟩
      · cases m with
        | feed chunk =>
            obtain ⟨t, ht, hw⟩ := ih (h.feed chunk)
            refine ⟨t, ?_, hw⟩
            rw [Move.fed, ← List.append_assoc, ← ht]
            rfl
        | look => exact ih h.look

/-! ## Draining after every chunk -/

theorem drain_eq {w : Framing} {packets : List Bytes} {stopped : Bool} {g : Framer} {rest : Bytes}
    (h : w.framer.drain w.buffer = (packets, stopped, g, rest)) :
    w.drain = ⟨g, rest, w.packets ++ packets, if stopped then some g.tooLarge else none⟩ := by
  simp only [drain, h]

/-- What a framer has come to when a stream that keeps its limit was fed and drained. -/
def settled (limit : Nat) (s : Bytes) : Framing :=
  ⟨⟨(unfinished s).length, limit, .keep⟩, unfinished s, lines s, none⟩

theorem settled_tracks (limit : Nat) (s chunk : Bytes) :
    (settled limit s).framer.Tracks (unfinished s ++ chunk) := by
  refine Framer.Tracks.feed ⟨Nat.le_refl _, ?_⟩ chunk
  intro m
  exact newline_not_mem_unfinished s (List.mem_of_mem_take m)

theorem drain_feed_settled {limit : Nat} {s chunk : Bytes} (hs : Fits limit s)
    (h : Fits limit (s ++ chunk)) :
    ((settled limit s).feed chunk).drain = settled limit (s ++ chunk) := by
  have hd := Framer.drain_of_fits (f := (settled limit s).framer) rfl (settled_tracks limit s chunk)
    ((fits_append hs chunk).1 h)
  have hto : settled limit (s ++ chunk) =
      ⟨⟨(unfinished (unfinished s ++ chunk)).length, limit, .keep⟩, unfinished (unfinished s ++ chunk),
        lines s ++ lines (unfinished s ++ chunk), none⟩ := by
    rw [settled, lines_append, unfinished_append]
  rw [drain_eq (w := (settled limit s).feed chunk) hd, hto]
  rfl

theorem drain_feed_settled_stops {limit : Nat} {s chunk : Bytes} (hs : Fits limit s)
    (h : ¬ Fits limit (s ++ chunk)) :
    ((settled limit s).feed chunk).drain.packets = fitting limit (s ++ chunk) ∧
      ((settled limit s).feed chunk).drain.failure = some (.packetTooLarge limit) := by
  obtain ⟨g, rest, hg, hd⟩ := Framer.drain_of_not_fits (f := (settled limit s).framer) rfl
    (settled_tracks limit s chunk) (fun hf => h ((fits_append hs chunk).2 hf))
  have hlim : g.limit = limit := hg
  rw [drain_eq (w := (settled limit s).feed chunk) hd, fitting_append_of_fits hs chunk]
  exact ⟨rfl, by rw [if_pos rfl, Framer.tooLarge, hlim]⟩

/-- **What comes of consuming chunks is computed from the stream that they make up.** -/
theorem consume_settled (limit : Nat) (chunks : List Bytes) :
    ∀ s, Fits limit s →
      if Fits limit (s ++ chunks.flatten) then
        (settled limit s).consume chunks = settled limit (s ++ chunks.flatten)
      else
        ((settled limit s).consume chunks).packets = fitting limit (s ++ chunks.flatten) ∧
          ((settled limit s).consume chunks).failure = some (.packetTooLarge limit) := by
  induction chunks with
  | nil =>
      intro s hs
      rw [List.flatten_nil, List.append_nil, if_pos hs]
      rfl
  | cons chunk chunks ih =>
      intro s hs
      have hgo : (settled limit s).consume (chunk :: chunks)
          = ((settled limit s).feed chunk).drain.consume chunks := rfl
      rw [hgo, List.flatten_cons, ← List.append_assoc]
      by_cases h : Fits limit (s ++ chunk)
      · rw [drain_feed_settled hs h]
        exact ih (s ++ chunk) h
      · -- the failure is there, and the chunks that follow are not looked at
        obtain ⟨hp, hf⟩ := drain_feed_settled_stops hs h
        obtain ⟨hnot, heq⟩ := fitting_append h chunks.flatten
        have hstop : ((settled limit s).feed chunk).drain.consume chunks
            = ((settled limit s).feed chunk).drain := by
          cases chunks with
          | nil => rfl
          | cons c cs => rw [consume, hf]; rfl
        rw [if_neg hnot, hstop, heq]
        exact ⟨hp, hf⟩

theorem fits_nil (limit : Nat) : Fits limit [] :=
  (fits_open List.not_mem_nil).2 (Nat.zero_le limit)

/-- The last look at a settled framer gives nothing, or the failure of bytes that are left. -/
theorem lookAtEnd_settled {limit : Nat} {s : Bytes} (h : Fits limit s) :
    ((settled limit s).framer.lookAtEnd (unfinished s)).1 =
      if unfinished s = [] then .ok none
      else .error (.io (.custom .other "bytes remaining on stream")) := by
  have e : (settled limit s).framer.look (unfinished s)
      = ⟨.incomplete, { (settled limit s).framer with searched := (unfinished s).length },
          unfinished s⟩ :=
    Framer.look_open (newline_not_mem_unfinished s) h.2
  rw [Framer.lookAtEnd, e]
  simp only [List.isEmpty_iff]

end Framing

/-- **Framing does not depend on how the stream is cut.**  Whatever moves were made and whatever moves
come `later`, the packets are the first lines of the whole stream, and packets, buffer and the bytes
still to be fed make it up.  And when each chunk is drained, the stream alone decides: if it keeps the
limit, all its lines come out, its unfinished rest stays in the buffer, and the last look finds
nothing exactly when there is no rest; if not, the lines before the first that breaks the limit come
out and then the failure that names the limit. -/
theorem framing_independent_of_cuts (limit : Nat) (made later : List Move) (chunks : List Bytes) :
    (let (w, left) := (Framing.start limit .keep).run made
     let s := Move.fed (made ++ later)
     w.packets <+: lines s ∧ w.packets.flatten ++ w.buffer ++ Move.fed (left ++ later) = s ∧
       (w.failure = none ∨ w.failure = some (.packetTooLarge limit))) ∧
    (let w := (Framing.start limit .keep).consume chunks
     let s := chunks.flatten
     if Fits limit s then
       w.packets = lines s ∧ w.failure = none ∧ w.buffer = unfinished s ∧
         (w.framer.lookAtEnd w.buffer).1 =
           if unfinished s = [] then .ok none
           else .error (.io (.custom .other "bytes remaining on stream"))
     else
       w.packets = fitting limit s ∧ w.failure = some (.packetTooLarge limit)) := by
  refine ⟨?_, ?_⟩
  · obtain ⟨t, ht, hw⟩ := Framing.Accounts.run made (Framing.accounts_start limit)
    have hs : t ++ Move.fed (((Framing.start limit .keep).run made).2 ++ later)
        = Move.fed (made ++ later) := by
      rw [Move.fed_append, Move.fed_append, ← List.append_assoc, ht]
      rfl
    refine ⟨?_, ?_, ?_⟩
    · rw [← hw.total, List.append_assoc] at hs
      exact prefix_lines hw.isLine hs
    · rw [hw.total, hs]
    · cases hf : ((Framing.start limit .keep).run made).1.failure with
      | none => exact .inl rfl
      | some f => exact .inr (by rw [hw.failure_eq f hf])
  · have h := Framing.consume_settled limit chunks [] (Framing.fits_nil limit)
    rw [List.nil_append] at h
    have hstart : Framing.start limit .keep = Framing.settled limit [] := rfl
    rw [hstart]
    by_cases hfit : Fits limit chunks.flatten
    · rw [if_pos hfit] at h
      simp only [if_pos hfit, h]
      exact ⟨rfl, rfl, rfl, Framing.lookAtEnd_settled hfit⟩
    · rw [if_neg hfit] at h
      simp only [if_neg hfit]
      exact h

end EchoLog
