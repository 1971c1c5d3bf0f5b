import EchoLog.Framing.Framer
import EchoLog.Proofs.Framing.Lines
/-!
# What a look at the buffer finds

`Framer.look` searches from where the last search ended.  As long as the part before that place holds
no newline (`Framer.Tracks`), the place does not matter: a look gives the first line of the buffer, or
finds the buffer unfinished, and in both cases first asks whether the limit is kept.  These four
cases are all that the rest of the theory uses of `look`; draining a buffer is the same in one piece.
-/

namespace EchoLog

/-- What a policy keeps of the bytes after a packet. -/
def Remainder.kept : Remainder → Bytes → Bytes
  | .keep, rest => rest
  | .drop, _ => []

namespace Framer

/-- The part of the buffer that a framer has searched is there and holds no newline. -/
structure Tracks (f : Framer) (buffer : Bytes) : Prop where
  within : f.searched ≤ buffer.length
  clear : newline ∉ buffer.take f.searched

/-- A framer that has searched nothing fits any buffer. -/
theorem tracks_of_searched_zero {f : Framer} (h : f.searched = 0) (buffer : Bytes) :
    f.Tracks buffer :=
  ⟨by omega, by rw [h, List.take_zero]; exact List.not_mem_nil⟩

/-- Bytes that arrive come after what was searched. -/
theorem Tracks.feed {f : Framer} {buffer : Bytes} (h : f.Tracks buffer) (chunk : Bytes) :
    f.Tracks (buffer ++ chunk) := by
  refine ⟨?_, ?_⟩
  · have := h.within
    rw [List.length_append]
    omega
  · rw [List.take_append_of_le_length h.within]
    exact h.clear

/-! ## The search -/

theorem findIdx?_open {s : Bytes} (h : newline ∉ s) : s.findIdx? (· == newline) = none := by
  rw [List.findIdx?_eq_none_iff]
  intro b hb
  simp only [beq_eq_false_iff_ne]
  exact fun e => h (e ▸ hb)

theorem findIdx?_newline {body : Bytes} (h : newline ∉ body) (rest : Bytes) :
    (body ++ newline :: rest).findIdx? (· == newline) = some body.length := by
  rw [List.findIdx?_append, findIdx?_open h, List.findIdx?_cons]
  simp only [beq_self_eq_true, if_true, Option.map_some, Nat.zero_add, Option.none_or]

/-- Without a newline the search finds nothing, wherever it starts. -/
theorem found?_open (f : Framer) {buffer : Bytes} (h : newline ∉ buffer) :
    f.found? buffer = none := by
  have hrest : newline ∉ buffer.drop f.searched := fun m => h (List.mem_of_mem_drop m)
  rw [found?, findIdx?_open hrest, Option.map_none]

/-- A search never starts behind the newline of the first line. -/
theorem Tracks.searched_lt {f : Framer} {l rest : Bytes} (ht : f.Tracks (l ++ rest)) (hl : IsLine l) :
    f.searched < l.length := by
  by_contra hlate
  obtain ⟨body, -, rfl⟩ := hl
  have hin : body ++ [newline] <+: (body ++ [newline] ++ rest).take f.searched :=
    List.prefix_take_iff.2 ⟨List.prefix_append _ _, Nat.le_of_not_lt hlate⟩
  exact ht.clear (hin.subset (List.mem_append_right _ (List.mem_singleton.2 rfl)))

/-- The search finds the end of the first line, because it did not start behind it. -/
theorem found?_line {f : Framer} {l rest : Bytes} (ht : f.Tracks (l ++ rest)) (hl : IsLine l) :
    f.found? (l ++ rest) = some l.length := by
  have hbefore := ht.searched_lt hl
  obtain ⟨body, hbody, rfl⟩ := hl
  have hstart : f.searched ≤ body.length := by
    rw [List.length_append, List.length_singleton] at hbefore
    exact Nat.le_of_lt_succ hbefore
  have hdrop : (body ++ [newline] ++ rest).drop f.searched
      = body.drop f.searched ++ newline :: rest := by
    rw [List.append_assoc, List.drop_append_of_le_length hstart]
    rfl
  have hclear : newline ∉ body.drop f.searched := fun m => hbody (List.mem_of_mem_drop m)
  rw [found?, hdrop, findIdx?_newline hclear, Option.map_some, List.length_drop,
    List.length_append, List.length_singleton]
  congr 1
  omega

/-! ## The four cases of a look -/

section Look

variable {f : Framer} {l rest buffer : Bytes}

theorem look_line (ht : f.Tracks (l ++ rest)) (hl : IsLine l) (h : l.length ≤ f.limit) :
    f.look (l ++ rest) = ⟨.packet l, f.rewind, f.remainder.kept rest⟩ := by
  rw [look, found?_line ht hl]
  simp only [gt_iff_lt, Nat.not_lt.2 h, if_false, List.take_left, List.drop_left]
  cases f.remainder <;> rfl

theorem look_long_line (ht : f.Tracks (l ++ rest)) (hl : IsLine l) (h : f.limit < l.length) :
    f.look (l ++ rest) = ⟨.oversized, f, l ++ rest⟩ := by
  rw [look, found?_line ht hl]
  simp only [gt_iff_lt, h, if_true]

theorem look_open (hb : newline ∉ buffer) (h : buffer.length ≤ f.limit) :
    f.look buffer = ⟨.incomplete, { f with searched := buffer.length }, buffer⟩ := by
  rw [look, found?_open f hb]
  simp only [gt_iff_lt, Nat.not_lt.2 h, if_false]

theorem look_long_open (hb : newline ∉ buffer) (h : f.limit < buffer.length) :
    f.look buffer = ⟨.oversized, f, buffer⟩ := by
  rw [look, found?_open f hb]
  simp only [gt_iff_lt, h, if_true]

end Look

/-- **All that a look can do**, for a framer that tracks its buffer. -/
theorem look_cases {f : Framer} {buffer : Bytes} (ht : f.Tracks buffer) :
    (∃ l rest, IsLine l ∧ l.length ≤ f.limit ∧ buffer = l ++ rest ∧
      f.look buffer = ⟨.packet l, f.rewind, f.remainder.kept rest⟩) ∨
    (newline ∉ buffer ∧ buffer.length ≤ f.limit ∧
      f.look buffer = ⟨.incomplete, { f with searched := buffer.length }, buffer⟩) ∨
    (¬ Fits f.limit buffer ∧ f.look buffer = ⟨.oversized, f, buffer⟩) := by
  rcases open_or_line buffer with hb | ⟨l, rest, hl, rfl⟩
  · rcases Nat.lt_or_ge f.limit buffer.length with hlong | hshort
    · exact .inr (.inr ⟨fun hf => absurd ((fits_open hb).1 hf) (by omega), look_long_open hb hlong⟩)
    · exact .inr (.inl ⟨hb, hshort, look_open hb hshort⟩)
  · rcases Nat.lt_or_ge f.limit l.length with hlong | hshort
    · exact .inr (.inr ⟨fun hf => absurd ((fits_line hl).1 hf).1 (by omega),
        look_long_line ht hl hlong⟩)
    · exact .inl ⟨l, rest, hl, hshort, rfl, look_line ht hl hshort⟩

/-- An oversized packet is the first in the buffer. -/
theorem fitting_of_oversized {f : Framer} {buffer : Bytes} (ht : f.Tracks buffer)
    (h : (f.look buffer).cut = .oversized) : fitting f.limit buffer = [] := by
  rcases open_or_line buffer with hb | ⟨l, rest, hl, rfl⟩
  · exact fitting_open hb
  · rcases Nat.lt_or_ge f.limit l.length with hlong | hshort
    · exact fitting_long_line hl hlong
    · rw [look_line ht hl hshort] at h
      cases h

/-- A framer goes on tracking its buffer after a look. -/
theorem Tracks.look {f : Framer} {buffer : Bytes} (ht : f.Tracks buffer) :
    (f.look buffer).framer.Tracks (f.look buffer).buffer := by
  rcases look_cases ht with ⟨l, rest, -, -, -, e⟩ | ⟨hb, -, e⟩ | ⟨-, e⟩ <;> rw [e]
  · exact tracks_of_searched_zero rfl _
  · exact ⟨Nat.le_refl _, fun m => hb (List.mem_of_mem_take m)⟩
  · exact ht

/-- A look changes neither the limit nor the policy. -/
theorem look_framer (f : Framer) (buffer : Bytes) :
    (f.look buffer).framer.limit = f.limit ∧ (f.look buffer).framer.remainder = f.remainder := by
  unfold Framer.look
  split <;> dsimp only <;> split <;> exact ⟨rfl, rfl⟩

/-! ## Draining -/

/-- A drain takes one look, and goes on with what that leaves after a packet. -/
theorem drain_look (f : Framer) (buffer : Bytes) :
    f.drain buffer =
      let l := f.look buffer
      match l.cut with
      | .packet p =>
        let (packets, stopped, g, rest) := l.framer.drain l.buffer
        (p :: packets, stopped, g, rest)
      | .incomplete => ([], false, l.framer, l.buffer)
      | .oversized => ([], true, l.framer, l.buffer) := by
  rw [drain]
  split <;> rename_i hcut <;> simp only [hcut]

/-- **Draining a buffer that keeps the limit gives its lines and leaves its unfinished rest.** -/
theorem drain_of_fits {s : Bytes} : ∀ {f : Framer}, f.remainder = .keep → f.Tracks s →
    Fits f.limit s →
    f.drain s = (lines s, false, { f with searched := (unfinished s).length }, unfinished s) := by
  induction s using stream_induction with
  | rest s hs =>
      intro f _ _ hfit
      have e := look_open (f := f) hs ((fits_open hs).1 hfit)
      rw [drain_look, e, lines_open hs, unfinished_open hs]
  | line l s hl ih =>
      intro f hkeep ht hfit
      obtain ⟨hlen, hfit⟩ := (fits_line hl).1 hfit
      have hrest := ih (f := f.rewind) hkeep (tracks_of_searched_zero rfl s) hfit
      rw [drain_look, look_line ht hl hlen, hkeep, Remainder.kept, lines_line hl, unfinished_line hl]
      simp only [hrest]
      rw [rewind, hkeep]

/-- Draining a buffer that breaks the limit gives the lines before the place and stops there. -/
theorem drain_of_not_fits {s : Bytes} : ∀ {f : Framer}, f.remainder = .keep → f.Tracks s →
    ¬ Fits f.limit s →
    ∃ g rest, g.limit = f.limit ∧ f.drain s = (fitting f.limit s, true, g, rest) := by
  induction s using stream_induction with
  | rest s hs =>
      intro f _ _ hnot
      have e := look_long_open (f := f) hs (by rw [fits_open hs] at hnot; omega)
      refine ⟨f, s, rfl, ?_⟩
      rw [drain_look, e, fitting_open hs]
  | line l s hl ih =>
      intro f hkeep ht hnot
      rcases Nat.lt_or_ge f.limit l.length with hlong | hshort
      · refine ⟨f, l ++ s, rfl, ?_⟩
        rw [drain_look, look_long_line ht hl hlong, fitting_long_line hl hlong]
      · have hrest : ¬ Fits f.limit s := fun hf => hnot ((fits_line hl).2 ⟨hshort, hf⟩)
        -- the look rewinds the framer, so it tracks what is left
        obtain ⟨g, rest, hg, hd⟩ :=
          ih (f := f.rewind) hkeep (tracks_of_searched_zero rfl s) hrest
        refine ⟨g, rest, hg, ?_⟩
        rw [drain_look, look_line ht hl hshort, hkeep, Remainder.kept, fitting_line hl hshort]
        simp only [hd]
        rfl

end Framer

end EchoLog
