import EchoLog.Bytes
import Mathlib.Data.List.TakeWhile
/-!
# The lines of a stream

What a stream of bytes consists of, said without any framer: finished lines, each with the newline
that ends it, and the unfinished rest.  `lines` and `unfinished` compute the two.  There is no other
cutting into lines (`lines_flatten_append`), so whoever hands out lines of a stream, in order and
without a gap, hands out a prefix of `lines`.

A bound on the length of a line is either met by all lines and by the rest (`Fits`), or there is a
first place where it is not.  `fitting` are the lines before that place, and it depends on no more of
the stream than what is needed to see the place (`fitting_append`).
-/

namespace EchoLog

/-- A line: bytes without a newline, and the newline that ends them. -/
def IsLine (l : Bytes) : Prop :=
  ∃ body, newline ∉ body ∧ l = body ++ [newline]

/-- Cuts a stream after each newline: the finished lines, and the unfinished rest. -/
def splitLines : Bytes → List Bytes × Bytes
  | [] => ([], [])
  | b :: s =>
    let (ls, rest) := splitLines s
    if b = newline then ([b] :: ls, rest)
    else
      match ls with
      | [] => ([], b :: rest)
      | l :: ls => ((b :: l) :: ls, rest)

/-- The finished lines of a stream. -/
def lines (s : Bytes) : List Bytes :=
  (splitLines s).1

/-- What follows the last newline of a stream. -/
def unfinished (s : Bytes) : Bytes :=
  (splitLines s).2

/-! ## Cutting at the first newline -/

/-- A stream without a newline has no line. -/
theorem splitLines_open {s : Bytes} (h : newline ∉ s) : splitLines s = ([], s) := by
  induction s with
  | nil => rfl
  | cons b s ih =>
      have hb : b ≠ newline := fun e => h (e ▸ List.mem_cons_self)
      have hs : newline ∉ s := fun m => h (List.mem_cons_of_mem _ m)
      simp only [splitLines, ih hs, if_neg hb]

/-- The first line comes off a stream as it stands. -/
theorem splitLines_line {l : Bytes} (hl : IsLine l) (s : Bytes) :
    splitLines (l ++ s) = (l :: lines s, unfinished s) := by
  obtain ⟨body, hbody, rfl⟩ := hl
  induction body with
  | nil => simp only [List.nil_append, List.singleton_append, splitLines, if_pos, lines, unfinished]
  | cons b body ih =>
      have hb : b ≠ newline := fun e => hbody (e ▸ List.mem_cons_self)
      have hrest : newline ∉ body := fun m => hbody (List.mem_cons_of_mem _ m)
      simp only [List.cons_append, splitLines, ih hrest, if_neg hb]

theorem lines_open {s : Bytes} (h : newline ∉ s) : lines s = [] := by
  rw [lines, splitLines_open h]

theorem unfinished_open {s : Bytes} (h : newline ∉ s) : unfinished s = s := by
  rw [unfinished, splitLines_open h]

theorem lines_line {l : Bytes} (hl : IsLine l) (s : Bytes) : lines (l ++ s) = l :: lines s := by
  rw [lines, splitLines_line hl]

theorem unfinished_line {l : Bytes} (hl : IsLine l) (s : Bytes) :
    unfinished (l ++ s) = unfinished s := by
  rw [unfinished, splitLines_line hl]

/-- An unfinished rest and a line are one line. -/
theorem IsLine.append {s l : Bytes} (hl : IsLine l) (hs : newline ∉ s) : IsLine (s ++ l) := by
  obtain ⟨body, hbody, rfl⟩ := hl
  refine ⟨s ++ body, ?_, (List.append_assoc _ _ _).symm⟩
  intro m
  rcases List.mem_append.1 m with m | m
  · exact hs m
  · exact hbody m

/-- A stream has no newline, or it starts with a line. -/
theorem open_or_line (s : Bytes) : newline ∉ s ∨ ∃ l rest, IsLine l ∧ s = l ++ rest := by
  induction s with
  | nil => exact .inl List.not_mem_nil
  | cons b s ih =>
      by_cases hb : b = newline
      · exact .inr ⟨[b], s, ⟨[], List.not_mem_nil, by rw [hb]; rfl⟩, rfl⟩
      · rcases ih with hs | ⟨l, rest, hl, rfl⟩
        · left
          intro m
          rcases List.mem_cons.1 m with e | m
          · exact hb e.symm
          · exact hs m
        · have hfirst : newline ∉ [b] := fun m => hb (List.mem_singleton.1 m).symm
          exact .inr ⟨b :: l, rest, hl.append hfirst, rfl⟩

theorem IsLine.length_pos {l : Bytes} (hl : IsLine l) : 0 < l.length := by
  obtain ⟨body, -, rfl⟩ := hl
  simp only [List.length_append, List.length_singleton, Nat.zero_lt_succ]

/-- Induction on a stream: nothing but an unfinished rest, or one line more in front. -/
theorem stream_induction {motive : Bytes → Prop} (rest : ∀ s, newline ∉ s → motive s)
    (line : ∀ l s, IsLine l → motive s → motive (l ++ s)) (s : Bytes) : motive s := by
  induction hn : s.length using Nat.strong_induction_on generalizing s with
  | _ n ih =>
      rcases open_or_line s with h | ⟨l, r, hl, rfl⟩
      · exact rest s h
      · have hpos := hl.length_pos
        rw [List.length_append] at hn
        exact line l r hl (ih r.length (by omega) r rfl)

/-! ## The lines and the rest are the stream -/

theorem flatten_lines_append (s : Bytes) : (lines s).flatten ++ unfinished s = s := by
  induction s using stream_induction with
  | rest s h =>
      rw [lines_open h, unfinished_open h]
      rfl
  | line l s hl ih =>
      rw [lines_line hl, unfinished_line hl, List.flatten_cons, List.append_assoc, ih]

theorem isLine_of_mem_lines {s l : Bytes} (h : l ∈ lines s) : IsLine l := by
  induction s using stream_induction with
  | rest s hs =>
      rw [lines_open hs] at h
      cases h
  | line l' s hl ih =>
      rw [lines_line hl] at h
      rcases List.mem_cons.1 h with rfl | h
      · exact hl
      · exact ih h

theorem newline_not_mem_unfinished (s : Bytes) : newline ∉ unfinished s := by
  induction s using stream_induction with
  | rest s h => rwa [unfinished_open h]
  | line l s hl ih => rwa [unfinished_line hl]

/-- Lines in front of a stream are its first lines: there is one way only to cut it into lines. -/
theorem lines_flatten_append {ls : List Bytes} (h : ∀ l ∈ ls, IsLine l) (s : Bytes) :
    lines (ls.flatten ++ s) = ls ++ lines s := by
  induction ls with
  | nil => rfl
  | cons l ls ih =>
      have hl := h l List.mem_cons_self
      have hls := ih fun l' m => h l' (List.mem_cons_of_mem _ m)
      rw [List.flatten_cons, List.append_assoc, lines_line hl, hls, List.cons_append]

theorem unfinished_flatten_append {ls : List Bytes} (h : ∀ l ∈ ls, IsLine l) (s : Bytes) :
    unfinished (ls.flatten ++ s) = unfinished s := by
  induction ls with
  | nil => rfl
  | cons l ls ih =>
      have hl := h l List.mem_cons_self
      rw [List.flatten_cons, List.append_assoc, unfinished_line hl]
      exact ih fun l' m => h l' (List.mem_cons_of_mem _ m)

/-- What is taken off the front of a stream line by line is a prefix of its lines. -/
theorem prefix_lines {ls : List Bytes} (h : ∀ l ∈ ls, IsLine l) {rest s : Bytes}
    (hs : ls.flatten ++ rest = s) : ls <+: lines s := by
  rw [← hs, lines_flatten_append h]
  exact List.prefix_append ls (lines rest)

/-- More of a stream adds lines, and the first of them starts with what was unfinished. -/
theorem lines_append (s t : Bytes) : lines (s ++ t) = lines s ++ lines (unfinished s ++ t) := by
  conv => lhs; rw [← flatten_lines_append s, List.append_assoc]
  exact lines_flatten_append (fun _ => isLine_of_mem_lines) _

theorem unfinished_append (s t : Bytes) : unfinished (s ++ t) = unfinished (unfinished s ++ t) := by
  conv => lhs; rw [← flatten_lines_append s, List.append_assoc]
  exact unfinished_flatten_append (fun _ => isLine_of_mem_lines) _

/-! ## A bound on the length of lines -/

/-- Whether all lines of a stream and its unfinished rest keep to a bound. -/
def Fits (limit : Nat) (s : Bytes) : Prop :=
  (∀ l ∈ lines s, l.length ≤ limit) ∧ (unfinished s).length ≤ limit

instance (limit : Nat) (s : Bytes) : Decidable (Fits limit s) :=
  inferInstanceAs (Decidable (_ ∧ _))

/-- The lines of a stream before the first that breaks a bound. -/
def fitting (limit : Nat) (s : Bytes) : List Bytes :=
  (lines s).takeWhile (·.length ≤ limit)

theorem fits_open {limit : Nat} {s : Bytes} (h : newline ∉ s) : Fits limit s ↔ s.length ≤ limit := by
  rw [Fits, lines_open h, unfinished_open h]
  exact ⟨And.right, fun hs => ⟨fun _ m => absurd m List.not_mem_nil, hs⟩⟩

theorem fits_line {limit : Nat} {l s : Bytes} (hl : IsLine l) :
    Fits limit (l ++ s) ↔ l.length ≤ limit ∧ Fits limit s := by
  simp only [Fits, lines_line hl, unfinished_line hl, List.forall_mem_cons, and_assoc]

theorem fitting_open {limit : Nat} {s : Bytes} (h : newline ∉ s) : fitting limit s = [] := by
  rw [fitting, lines_open h, List.takeWhile_nil]

theorem fitting_line {limit : Nat} {l s : Bytes} (hl : IsLine l) (h : l.length ≤ limit) :
    fitting limit (l ++ s) = l :: fitting limit s := by
  rw [fitting, lines_line hl, List.takeWhile_cons, if_pos (decide_eq_true h), fitting]

theorem fitting_long_line {limit : Nat} {l s : Bytes} (hl : IsLine l) (h : limit < l.length) :
    fitting limit (l ++ s) = [] := by
  rw [fitting, lines_line hl, List.takeWhile_cons, if_neg]
  simpa only [decide_eq_true_eq, Nat.not_le] using h

/-- Lines that keep to the bound do not matter to what follows them. -/
theorem fits_flatten_append {limit : Nat} {ls : List Bytes}
    (h : ∀ l ∈ ls, IsLine l ∧ l.length ≤ limit) (s : Bytes) :
    (Fits limit (ls.flatten ++ s) ↔ Fits limit s) ∧
      fitting limit (ls.flatten ++ s) = ls ++ fitting limit s := by
  induction ls with
  | nil => exact ⟨Iff.rfl, rfl⟩
  | cons l ls ih =>
      obtain ⟨hl, hle⟩ := h l List.mem_cons_self
      obtain ⟨hfits, hfitting⟩ := ih fun l' m => h l' (List.mem_cons_of_mem _ m)
      rw [List.flatten_cons, List.append_assoc, fits_line hl, fitting_line hl hle, hfits, hfitting]
      exact ⟨and_iff_right hle, rfl⟩

/-- An unfinished rest over the bound is over it with whatever comes after it. -/
theorem fitting_long_rest {limit : Nat} {s : Bytes} (h : newline ∉ s) (hs : limit < s.length)
    (t : Bytes) : ¬ Fits limit (s ++ t) ∧ fitting limit (s ++ t) = [] := by
  rcases open_or_line (s ++ t) with ho | ⟨l, r, hl, e⟩
  · refine ⟨?_, fitting_open ho⟩
    intro hf
    have hle := (fits_open ho).1 hf
    rw [List.length_append] at hle
    omega
  · -- the first line cannot end inside `s`, which holds no newline
    have hlong : limit < l.length := by
      obtain ⟨body, -, rfl⟩ := hl
      by_contra hshort
      have hin : body ++ [newline] <+: s :=
        List.prefix_of_prefix_length_le ⟨r, e.symm⟩ ⟨t, rfl⟩ (by omega)
      exact h (hin.subset (List.mem_append_right _ (List.mem_singleton.2 rfl)))
    rw [e]
    exact ⟨fun hf => absurd ((fits_line hl).1 hf).1 (by omega), fitting_long_line hl hlong⟩

/-- **Where a bound is first broken does not depend on what comes after.** -/
theorem fitting_append {limit : Nat} {s : Bytes} (h : ¬ Fits limit s) (t : Bytes) :
    ¬ Fits limit (s ++ t) ∧ fitting limit (s ++ t) = fitting limit s := by
  induction s using stream_induction with
  | rest s hs =>
      rw [fits_open hs, Nat.not_le] at h
      rw [fitting_open hs]
      exact fitting_long_rest hs h t
  | line l s hl ih =>
      rw [List.append_assoc, fits_line hl]
      rw [fits_line hl] at h
      rcases Nat.lt_or_ge limit l.length with hlong | hshort
      · rw [fitting_long_line hl hlong, fitting_long_line hl hlong]
        exact ⟨fun hf => absurd hf.1 (by omega), rfl⟩
      · obtain ⟨hnot, heq⟩ := ih fun hf => h ⟨hshort, hf⟩
        rw [fitting_line hl hshort, fitting_line hl hshort, heq]
        exact ⟨fun hf => hnot hf.2, rfl⟩

/-- What is added to a stream that fits is judged together with the unfinished rest alone. -/
theorem fits_append {limit : Nat} {s : Bytes} (h : Fits limit s) (t : Bytes) :
    Fits limit (s ++ t) ↔ Fits limit (unfinished s ++ t) := by
  rw [Fits, Fits, lines_append, unfinished_append]
  simp only [List.forall_mem_append]
  exact ⟨fun hf => ⟨hf.1.2, hf.2⟩, fun hf => ⟨⟨h.1, hf.1⟩, hf.2⟩⟩

theorem fitting_append_of_fits {limit : Nat} {s : Bytes} (h : Fits limit s) (t : Bytes) :
    fitting limit (s ++ t) = lines s ++ fitting limit (unfinished s ++ t) := by
  rw [fitting, lines_append, List.takeWhile_append_of_pos fun l m => decide_eq_true (h.1 l m)]
  rfl

end EchoLog
