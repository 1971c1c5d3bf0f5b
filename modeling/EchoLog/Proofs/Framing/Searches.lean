import EchoLog.Proofs.Framing.Cuts
/-!
# Every byte is searched once

A framer goes on searching where its last search ended.  Here the searches of a run are written down,
each with its place in the stream (`Framing.searches`): where it starts, the bytes that it compares with a
newline, and the bytes behind them that the policy drops.

The buffer is what is left of the stream that has arrived (`Framing.Follows`), which gives every place in
it a place in the stream.  There each search starts where the one before it stopped, or where the bytes
that were dropped then end (`Sweeps`): no byte is compared twice, and none is passed over.
-/

namespace EchoLog

/-! ## What a search compares -/

/-- Compares bytes with a newline, one after another: those that were compared, up to the first that is
one, and whether there was one. -/
def scan : Bytes → Bytes × Bool
  | [] => ([], false)
  | b :: s =>
    if b = newline then ([b], true)
    else
      let (seen, found) := scan s
      (b :: seen, found)

theorem scan_open {s : Bytes} (h : newline ∉ s) : scan s = (s, false) := by
  induction s with
  | nil => rfl
  | cons b s ih =>
      have hb : b ≠ newline := fun e => h (e ▸ List.mem_cons_self)
      have hs : newline ∉ s := fun m => h (List.mem_cons_of_mem _ m)
      simp only [scan, if_neg hb, ih hs]

theorem scan_line {l : Bytes} (hl : IsLine l) (rest : Bytes) : scan (l ++ rest) = (l, true) := by
  obtain ⟨body, hbody, rfl⟩ := hl
  induction body with
  | nil => rfl
  | cons b body ih =>
      have hb : b ≠ newline := fun e => hbody (e ▸ List.mem_cons_self)
      have hrest : newline ∉ body := fun m => hbody (List.mem_cons_of_mem _ m)
      simp only [List.cons_append, scan, if_neg hb, ih hrest]

theorem scan_isPrefix (s : Bytes) : (scan s).1 <+: s := by
  rcases open_or_line s with hopen | ⟨l, rest, hl, rfl⟩
  · exact ⟨[], by rw [scan_open hopen, List.append_nil]⟩
  · rw [scan_line hl]
    exact List.prefix_append l rest

/-- The part of a line that is left behind a place in it is a line. -/
theorem IsLine.drop {l : Bytes} (hl : IsLine l) {place : Nat} (h : place < l.length) :
    IsLine (l.drop place) := by
  obtain ⟨body, hbody, rfl⟩ := hl
  rw [List.length_append, List.length_singleton] at h
  refine ⟨body.drop place, fun m => hbody (List.mem_of_mem_drop m), ?_⟩
  exact List.drop_append_of_le_length (Nat.le_of_lt_succ h)

namespace Framer

/-- The search of a look, byte by byte: the bytes that it compares with a newline, and the length of the
packet that it finds. -/
def probe (f : Framer) (buffer : Bytes) : Bytes × Option Nat :=
  let (seen, found) := scan (buffer.drop f.searched)
  (seen, if found then some (f.searched + seen.length) else none)

/-- **Byte by byte a search finds what it finds**, whatever the buffer holds before its start. -/
theorem found?_eq_probe (f : Framer) (buffer : Bytes) : f.found? buffer = (f.probe buffer).2 := by
  rw [found?, probe]
  rcases open_or_line (buffer.drop f.searched) with hopen | ⟨l, rest, hl, hdrop⟩
  · rw [findIdx?_open hopen, scan_open hopen]
    rfl
  · rw [hdrop, scan_line hl]
    obtain ⟨body, hbody, rfl⟩ := hl
    rw [List.append_assoc, List.singleton_append, findIdx?_newline hbody]
    show some (f.searched + body.length + 1) = some (f.searched + (body ++ [newline]).length)
    rw [List.length_append, List.length_singleton, Nat.add_assoc]

end Framer

/-! ## The searches of a run -/

/-- What a policy drops of the bytes after a packet. -/
def Remainder.dropped : Remainder → Bytes → Bytes
  | .keep, _ => []
  | .drop, rest => rest

/-- One search: its place in the stream, the bytes that it compares with a newline, and the bytes behind
them that are dropped. -/
structure Search where
  start : Nat
  seen : Bytes
  dropped : Bytes
deriving DecidableEq, Repr

namespace Search

/-- The place behind the last byte that was compared. -/
def stop (t : Search) : Nat :=
  t.start + t.seen.length

/-- The place behind the last byte that was compared or dropped. -/
def resume (t : Search) : Nat :=
  t.stop + t.dropped.length

theorem start_le_stop (t : Search) : t.start ≤ t.stop :=
  Nat.le_add_right _ _

theorem stop_le_resume (t : Search) : t.stop ≤ t.resume :=
  Nat.le_add_right _ _

end Search

namespace Framing

/-- The search of the look that a framer would take now, after so many bytes of the stream.  The buffer is
the end of these bytes.  Dropped is what is afterwards neither in the packet nor in the buffer. -/
def search (w : Framing) (fed : Nat) : Search :=
  let l := w.framer.look w.buffer
  { start := fed - w.buffer.length + min w.framer.searched w.buffer.length
    seen := (w.framer.probe w.buffer).1
    dropped :=
      match l.cut with
      | .packet p => (w.buffer.drop p.length).take (w.buffer.length - p.length - l.buffer.length)
      | _ => [] }

/-- A search that finds no newline goes to the end of the buffer. -/
theorem search_open {w : Framing} (hopen : newline ∉ w.buffer) (fed : Nat) :
    (w.search fed).seen = w.buffer.drop w.framer.searched := by
  have hleft : newline ∉ w.buffer.drop w.framer.searched := fun m => hopen (List.mem_of_mem_drop m)
  rw [search, Framer.probe, scan_open hleft]

/-- A search that ends in no packet drops nothing. -/
theorem search_dropped {w : Framing} (hcut : ∀ p, (w.framer.look w.buffer).cut ≠ .packet p) (fed : Nat) :
    (w.search fed).dropped = [] := by
  rw [search]
  split
  · rename_i p hp
    exact absurd hp (hcut p)
  · rfl

/-- The searches of moves up to the first failure, after so many bytes of the stream. -/
def searches : Framing → Nat → List Move → List Search
  | _, _, [] => []
  | w, fed, m :: moves =>
    if w.failure.isSome then []
    else
      match m with
      | .feed chunk => (w.feed chunk).searches (fed + chunk.length) moves
      | .look => w.search fed :: w.look.searches fed moves

/-- A framer that has failed searches no more. -/
theorem searches_of_failure {w : Framing} (h : w.failure.isSome = true) (fed : Nat) (moves : List Move) :
    w.searches fed moves = [] := by
  cases moves with
  | nil => rfl
  | cons m moves => cases m <;> rw [searches, if_pos h]

/-- Where the next search starts in the stream, after so many bytes of it. -/
def place (w : Framing) (fed : Nat) : Nat :=
  fed - w.buffer.length + w.framer.searched

/-- A framer at work on a stream, of which `s` has arrived: it has searched a part of its buffer, and the
buffer is the end of what has arrived. -/
structure Follows (w : Framing) (s : Bytes) : Prop where
  tracks : w.framer.Tracks w.buffer
  suffix : w.buffer <:+ s

theorem follows_start (limit : Nat) (remainder : Remainder) : (start limit remainder).Follows [] where
  tracks := Framer.tracks_of_searched_zero rfl _
  suffix := List.suffix_refl []

namespace Follows

variable {w : Framing} {s : Bytes}

theorem feed (h : w.Follows s) (chunk : Bytes) : (w.feed chunk).Follows (s ++ chunk) where
  tracks := h.tracks.feed chunk
  suffix := by
    obtain ⟨front, rfl⟩ := h.suffix
    exact ⟨front, (List.append_assoc front w.buffer chunk).symm⟩

/-- Bytes that arrive do not move the place of the next search. -/
theorem place_feed (h : w.Follows s) (chunk : Bytes) :
    (w.feed chunk).place (s ++ chunk).length = w.place s.length := by
  have hbuffer := h.suffix.length_le
  show (s ++ chunk).length - (w.buffer ++ chunk).length + w.framer.searched = _
  rw [List.length_append, List.length_append, place]
  omega

/-- The stream from the place of the next search on: the part of the buffer that has not been searched,
and what is still to come. -/
theorem drop_place (h : w.Follows s) (later : Bytes) :
    (s ++ later).drop (w.place s.length) = w.buffer.drop w.framer.searched ++ later := by
  obtain ⟨front, rfl⟩ := h.suffix
  have hfront : (front ++ w.buffer).length - w.buffer.length = front.length := by
    rw [List.length_append, Nat.add_sub_cancel]
  rw [place, hfront, List.append_assoc, List.drop_length_add_append,
    List.drop_append_of_le_length h.tracks.within]

theorem search_start (h : w.Follows s) : (w.search s.length).start = w.place s.length := by
  show s.length - w.buffer.length + min w.framer.searched w.buffer.length = _
  rw [Nat.min_eq_left h.tracks.within, place]

/-- A search that ends in a packet goes on to the end of the packet, and the policy drops what it does not
keep. -/
theorem search_line (h : w.Follows s) {l rest : Bytes} (hl : IsLine l)
    (hbuffer : w.buffer = l ++ rest)
    (hlook : w.framer.look w.buffer = ⟨.packet l, w.framer.rewind, w.framer.remainder.kept rest⟩) :
    (w.search s.length).seen = l.drop w.framer.searched ∧
      (w.search s.length).dropped = w.framer.remainder.dropped rest := by
  have hstart : w.framer.searched < l.length := Framer.Tracks.searched_lt (hbuffer ▸ h.tracks) hl
  refine ⟨?_, ?_⟩
  · have hdrop : w.buffer.drop w.framer.searched = l.drop w.framer.searched ++ rest := by
      rw [hbuffer, List.drop_append_of_le_length (Nat.le_of_lt hstart)]
    rw [search, Framer.probe, hdrop, scan_line (hl.drop hstart)]
  · have hrest : w.buffer.length - l.length = rest.length := by
      rw [hbuffer, List.length_append, Nat.add_sub_cancel_left]
    simp only [search, hlook, hrest]
    rw [hbuffer, List.drop_left]
    cases w.framer.remainder with
    | keep =>
        show rest.take (rest.length - rest.length) = []
        rw [Nat.sub_self, List.take_zero]
    | drop => exact List.take_length

/-- A search compares, and drops, bytes from its place on, in their order. -/
theorem search_isPrefix (h : w.Follows s) :
    (w.search s.length).seen ++ (w.search s.length).dropped <+: w.buffer.drop w.framer.searched := by
  have hseen : (w.search s.length).seen <+: w.buffer.drop w.framer.searched := scan_isPrefix _
  rcases Framer.look_cases h.tracks with ⟨l, rest, hl, -, hbuffer, e⟩ | ⟨-, -, e⟩ | ⟨-, e⟩
  · obtain ⟨hl', hdropped⟩ := h.search_line hl hbuffer e
    have hstart : w.framer.searched < l.length := Framer.Tracks.searched_lt (hbuffer ▸ h.tracks) hl
    rw [hl', hdropped, hbuffer, List.drop_append_of_le_length (Nat.le_of_lt hstart)]
    cases w.framer.remainder with
    | keep =>
        rw [Remainder.dropped, List.append_nil]
        exact List.prefix_append _ rest
    | drop => exact List.prefix_refl _
  · rw [search_dropped (by simp [e]), List.append_nil]
    exact hseen
  · rw [search_dropped (by simp [e]), List.append_nil]
    exact hseen

/-- **The next search starts where this one and what was dropped after it end**, unless it failed. -/
theorem resume_search (h : w.Follows s) (hgoes : w.look.failure = none) :
    (w.search s.length).resume = w.look.place s.length := by
  have hsuffix := h.suffix.length_le
  have hwithin := h.tracks.within
  show (w.search s.length).start + (w.search s.length).seen.length
    + (w.search s.length).dropped.length = _
  rw [h.search_start]
  rcases Framer.look_cases h.tracks with ⟨l, rest, hl, -, hbuffer, e⟩ | ⟨hopen, -, e⟩ | ⟨-, e⟩
  · obtain ⟨hseen, hdropped⟩ := h.search_line hl hbuffer e
    have hstart : w.framer.searched < l.length := Framer.Tracks.searched_lt (hbuffer ▸ h.tracks) hl
    have hbufferLength : w.buffer.length = l.length + rest.length := by
      rw [hbuffer, List.length_append]
    have hlook : w.look.place s.length = s.length - (w.framer.remainder.kept rest).length := by
      simp only [place, look, e, Framer.rewind, Nat.add_zero]
    rw [hseen, hdropped, hlook, place, List.length_drop]
    cases w.framer.remainder with
    | keep =>
        show _ + 0 = s.length - rest.length
        omega
    | drop =>
        show _ + rest.length = s.length - 0
        omega
  · have hlook : w.look.place s.length = s.length - w.buffer.length + w.buffer.length := by
      simp only [place, look, e]
    rw [search_open hopen, search_dropped (by simp [e]), hlook, place, List.length_drop, List.length_nil]
    omega
  · rw [look, e] at hgoes
    cases hgoes

/-- A look leaves the end of what has arrived in the buffer. -/
theorem look (h : w.Follows s) : w.look.Follows s := by
  have htracks := h.tracks.look
  rcases Framer.look_cases h.tracks with ⟨l, rest, -, -, hbuffer, e⟩ | ⟨-, -, e⟩ | ⟨-, e⟩
  all_goals
    rw [e] at htracks
    simp only [Framing.look, e]
  · refine ⟨htracks, ?_⟩
    cases w.framer.remainder with
    | keep => exact (hbuffer ▸ List.suffix_append l rest).trans h.suffix
    | drop => exact List.nil_suffix
  · exact ⟨htracks, h.suffix⟩
  · exact ⟨htracks, h.suffix⟩

/-- A framer that keeps what follows a packet drops nothing. -/
theorem search_keeps (h : w.Follows s) (hkeep : w.framer.remainder = .keep) :
    (w.search s.length).dropped = [] := by
  rcases Framer.look_cases h.tracks with ⟨l, rest, hl, -, hbuffer, e⟩ | ⟨-, -, e⟩ | ⟨-, e⟩
  · rw [(h.search_line hl hbuffer e).2, hkeep, Remainder.dropped]
  · exact search_dropped (by simp [e]) _
  · exact search_dropped (by simp [e]) _

end Follows

theorem remainder_look (w : Framing) : w.look.framer.remainder = w.framer.remainder := by
  have hsame := (Framer.look_framer w.framer w.buffer).2
  rw [look]
  split <;> exact hsame

end Framing

/-! ## Searches without gap and overlap -/

/-- Searches that go through a stream from a place on: each starts where the one before it stopped, or
where the bytes that were dropped then end. -/
inductive Sweeps (remainder : Remainder) (stream : Bytes) : Nat → List Search → Prop
  | nil {place : Nat} : Sweeps remainder stream place []
  | cons {t : Search} {ts : List Search} : t.seen ++ t.dropped <+: stream.drop t.start →
      (remainder = .keep → t.dropped = []) → Sweeps remainder stream t.resume ts →
      Sweeps remainder stream t.start (t :: ts)

namespace Sweeps

variable {remainder : Remainder} {stream : Bytes} {place : Nat} {ts : List Search}

/-- No search goes back. -/
theorem le_start (h : Sweeps remainder stream place ts) : ∀ t ∈ ts, place ≤ t.start := by
  induction h with
  | nil => exact fun t m => absurd m List.not_mem_nil
  | @cons t ts _ _ _ ih =>
      intro u hu
      rcases List.mem_cons.1 hu with rfl | hu
      · exact Nat.le_refl _
      · exact (t.start_le_stop.trans t.stop_le_resume).trans (ih u hu)

/-- **Searches are apart**, in the order in which they are made. -/
theorem apart (h : Sweeps remainder stream place ts) : ts.Pairwise fun t u => t.stop ≤ u.start := by
  induction h with
  | nil => exact List.Pairwise.nil
  | @cons t ts _ _ hrest ih =>
      refine List.pairwise_cons.2 ⟨?_, ih⟩
      intro u hu
      exact t.stop_le_resume.trans (hrest.le_start u hu)

/-- **Nothing is passed over**: what stands before a search was searched, or dropped after a search. -/
theorem behind (h : Sweeps remainder stream place ts) : ∀ {before after : List Search} {t : Search},
    ts = before ++ t :: after → ∀ p, place ≤ p → p < t.start →
      ∃ u ∈ before, (u.start ≤ p ∧ p < u.stop) ∨ (u.stop ≤ p ∧ p < u.resume) := by
  induction h with
  | nil =>
      intro before after t hsplit
      cases before <;> cases hsplit
  | @cons u us _ _ hrest ih =>
      intro before after t hsplit p hfrom hto
      cases before with
      | nil =>
          cases hsplit
          omega
      | cons v before =>
          obtain ⟨rfl, htail⟩ := List.cons.inj hsplit
          by_cases hlater : u.resume ≤ p
          · obtain ⟨v, hv, hin⟩ := ih htail p hlater hto
            exact ⟨v, List.mem_cons_of_mem _ hv, hin⟩
          · refine ⟨u, List.mem_cons_self, ?_⟩
            omega

/-- The bytes of a search stand in the stream at its place. -/
theorem reads (h : Sweeps remainder stream place ts) : ∀ t ∈ ts,
    t.seen ++ t.dropped <+: stream.drop t.start ∧ (remainder = .keep → t.dropped = []) := by
  induction h with
  | nil => exact fun t m => absurd m List.not_mem_nil
  | cons hreads hkeeps _ ih => exact List.forall_mem_cons.2 ⟨⟨hreads, hkeeps⟩, ih⟩

end Sweeps

/-- **The searches of a run go through its stream**, from the place where the first starts. -/
theorem Framing.Follows.sweeps {remainder : Remainder} {moves : List Move} :
    ∀ {w : Framing} {s : Bytes}, w.Follows s → w.framer.remainder = remainder →
      Sweeps remainder (s ++ Move.fed moves) (w.place s.length) (w.searches s.length moves) := by
  induction moves with
  | nil =>
      intro w s _ _
      exact .nil
  | cons m moves ih =>
      intro w s h hremainder
      cases hfailure : w.failure.isSome with
      | true =>
          rw [searches_of_failure hfailure]
          exact .nil
      | false =>
          cases m with
          | feed chunk =>
              have hrest := ih (h.feed chunk) hremainder
              rw [h.place_feed, List.append_assoc, List.length_append] at hrest
              rwa [searches, hfailure, if_neg Bool.false_ne_true]
          | look =>
              rw [searches, hfailure, if_neg Bool.false_ne_true, ← h.search_start]
              refine .cons ?_ ?_ ?_
              · rw [h.search_start, Move.fed, h.drop_place]
                exact h.search_isPrefix.trans (List.prefix_append _ _)
              · intro hkeep
                exact h.search_keeps (hremainder.trans hkeep)
              · cases hgoes : w.look.failure with
                | some f =>
                    rw [searches_of_failure (by rw [hgoes]; rfl)]
                    exact .nil
                | none =>
                    rw [h.resume_search hgoes]
                    exact ih h.look (w.remainder_look.trans hremainder)

/-- **Every byte is searched once.**  Byte by byte, a search goes from where the last one ended up to the
first newline, or to the end of the buffer.  For every limit, policy and schedule, up to the first failure
and with its search, the searches are apart and in the order of the stream.  The bytes that a search
compares are those of the stream at its place, followed by the ones that are dropped after it, which are
none where the policy is to keep them.  And all that stands in the stream before a search was compared by
an earlier one, or dropped after it. -/
theorem every_byte_is_searched_once (limit : Nat) (remainder : Remainder) (moves : List Move) :
    (∀ (f : Framer) (buffer : Bytes), f.found? buffer = (f.probe buffer).2) ∧
    (let searches := (Framing.start limit remainder).searches 0 moves
     searches.Pairwise (fun t u => t.stop ≤ u.start) ∧
     (∀ t ∈ searches, t.seen ++ t.dropped <+: (Move.fed moves).drop t.start ∧
       (remainder = .keep → t.dropped = [])) ∧
     ∀ before t after, searches = before ++ t :: after → ∀ place < t.start,
       ∃ u ∈ before, (u.start ≤ place ∧ place < u.stop) ∨ (u.stop ≤ place ∧ place < u.resume)) := by
  have hsweeps : Sweeps remainder (Move.fed moves) 0 ((Framing.start limit remainder).searches 0 moves) :=
    (Framing.follows_start limit remainder).sweeps rfl
  refine ⟨Framer.found?_eq_probe, hsweeps.apart, hsweeps.reads, ?_⟩
  intro before t after hsplit place hplace
  exact hsweeps.behind hsplit place (Nat.zero_le place) hplace

/-- A packet in two pieces, under the policy that drops what follows it. -/
example :
    (Framing.start 8 .drop).searches 0
        [.feed (utf8 "on"), .look, .feed (utf8 "e\ntail"), .look, .look, .feed (utf8 "two"), .look] =
      [⟨0, utf8 "on", []⟩, ⟨2, utf8 "e\n", utf8 "tail"⟩, ⟨8, [], []⟩, ⟨8, utf8 "two", []⟩] := by
  decide

end EchoLog
