import EchoLog.Net.Resolve
import Mathlib.Data.List.Induction
import Mathlib.Data.List.TakeWhile
import Mathlib.Tactic.IntervalCases
/-!
# Numbers in addresses

Which texts `Net.readNumber` takes for which numbers.  `NumberForm.Admits` are the conditions on the
digits, and the reader takes all the digits there are (`readNumber_eq_some_iff`).  For the bytes of a dotted
quad, the groups of an IPv6 address and the ports, the conditions come down to the numeral of the number,
which `numeral` writes, and to the ways it may be altered: zeros before it and capitals in it.
-/

namespace EchoLog

/-! ## Digits -/

theorem char_le_iff (c d : Char) : c ≤ d ↔ c.toNat ≤ d.toNat := Iff.rfl

/-- The capital of a letter is 32 places before it. -/
theorem toNat_toLower (c : Char) :
    c.toLower.toNat = if 65 ≤ c.toNat ∧ c.toNat ≤ 90 then c.toNat + 32 else c.toNat := by
  by_cases h : c.val ≥ 'A'.val ∧ c.val ≤ 'Z'.val
  · have hcapital : 65 ≤ c.toNat ∧ c.toNat ≤ 90 := h
    have hlower : c.toLower.val = c.val + 32 := congrArg Char.val (dif_pos h)
    rw [if_pos hcapital, Char.toNat, hlower, UInt32.toNat_add]
    exact Nat.mod_eq_of_lt (by change c.toNat + 32 < 2 ^ 32; omega)
  · have hother : ¬ (65 ≤ c.toNat ∧ c.toNat ≤ 90) := h
    have hsame : c.toLower = c := dif_neg h
    rw [if_neg hother, hsame]

/-- The value of a digit in numbers of its place. -/
theorem digitValue?_eq_some_iff {base d : Nat} {c : Char} :
    digitValue? base c = some d ↔
      d < base ∧ ((48 ≤ c.toNat ∧ c.toNat ≤ 57 ∧ c.toNat = 48 + d) ∨
        (97 ≤ c.toNat ∧ c.toNat ≤ 122 ∧ c.toNat = 87 + d) ∨
        (65 ≤ c.toNat ∧ c.toNat ≤ 90 ∧ c.toNat = 55 + d)) := by
  simp only [digitValue?, char_le_iff, Option.filter_eq_some_iff, decide_eq_true_eq]
  change (if 48 ≤ c.toNat ∧ c.toNat ≤ 57 then _ else if 97 ≤ c.toNat ∧ c.toNat ≤ 122 then _
    else if 65 ≤ c.toNat ∧ c.toNat ≤ 90 then _ else _) = _ ∧ _ ↔ _
  split
  · simp only [Option.some.injEq]; omega
  · split
    · simp only [Option.some.injEq]; omega
    · split
      · simp only [Option.some.injEq]; omega
      · simp only [reduceCtorEq, false_and, false_iff]; omega

/-- **The digits of a value** are the one of its numeral and, among letters, the capital of it. -/
theorem digitValue?_eq_some_iff_digitChar {base d : Nat} {c : Char} (hbase : base ≤ 16) :
    digitValue? base c = some d ↔ d < base ∧ c.toLower = Nat.digitChar d := by
  rw [digitValue?_eq_some_iff, ← Char.toNat_inj, toNat_toLower]
  refine and_congr_right fun hd => ?_
  have hsixteen : d < 16 := lt_of_lt_of_le hd hbase
  clear hd
  interval_cases d <;> simp only [Nat.digitChar] <;> simp <;> split <;> omega

theorem isDigitOf_of_le {base larger : Nat} (hbase : base ≤ larger) {c : Char}
    (h : isDigitOf base c = true) : isDigitOf larger c = true := by
  obtain ⟨d, hd⟩ := Option.isSome_iff_exists.1 h
  rw [digitValue?_eq_some_iff] at hd
  exact Option.isSome_of_mem (digitValue?_eq_some_iff.2 ⟨hd.1.trans_le hbase, hd.2⟩)

/-! ## Numerals -/

/-- A numeral of `n`: the one that `numeral` writes, or one with zeros before it or capitals in it. -/
def IsNumeral (base n : Nat) (cs : List Char) : Prop :=
  ∃ zeros, cs.map Char.toLower = List.replicate zeros '0' ++ Nat.toDigits base n

variable {base n : Nat}

/-- The last digit of a numeral is what is left over of the base, and those before it are the quotient. -/
theorem isNumeral_concat_iff (hbase : 1 < base) {cs : List Char} {c : Char} :
    IsNumeral base n (cs ++ [c]) ↔
      c.toLower = Nat.digitChar (n % base) ∧ (IsNumeral base (n / base) cs ∨ cs = [] ∧ n < base) := by
  simp only [IsNumeral, List.map_append, List.map_cons, List.map_nil]
  by_cases hn : n < base
  · rw [Nat.toDigits_of_lt_base hn, Nat.mod_eq_of_lt hn, Nat.div_eq_of_lt hn, Nat.toDigits_zero]
    simp only [List.append_singleton_inj, ← List.replicate_succ']
    constructor
    · rintro ⟨zeros, hcs, hc⟩
      refine ⟨hc, ?_⟩
      cases zeros with
      | zero => exact .inr ⟨List.map_eq_nil_iff.1 hcs, hn⟩
      | succ zeros => exact .inl ⟨zeros, hcs⟩
    · rintro ⟨hc, ⟨zeros, hcs⟩ | ⟨rfl, -⟩⟩
      · exact ⟨zeros + 1, hcs, hc⟩
      · exact ⟨0, rfl, hc⟩
  · rw [Nat.toDigits_of_base_le hbase (Nat.le_of_not_lt hn)]
    simp only [← List.append_assoc, List.append_singleton_inj, hn, and_false, or_false]
    exact exists_and_right.trans and_comm

theorem digitsValue_concat (cs : List Char) (c : Char) :
    digitsValue base (cs ++ [c]) = base * digitsValue base cs + (digitValue? base c).getD 0 := by
  rw [digitsValue, List.foldl_append]
  rfl

/-- **The numerals of a number are the texts of digits that have it as their value.** -/
theorem isNumeral_iff (hone : 1 < base) (hbase : base ≤ 16) {cs : List Char} :
    IsNumeral base n cs ↔
      cs ≠ [] ∧ (∀ c ∈ cs, isDigitOf base c = true) ∧ digitsValue base cs = n := by
  induction cs using List.reverseRecOn generalizing n with
  | nil => simp [IsNumeral, Nat.toDigits_ne_nil]
  | append_singleton cs c ih =>
      rw [isNumeral_concat_iff hone]
      constructor
      · rintro ⟨hc, hcs⟩
        have hdigit : digitValue? base c = some (n % base) :=
          (digitValue?_eq_some_iff_digitChar hbase).2 ⟨Nat.mod_lt _ (Nat.zero_lt_of_lt hone), hc⟩
        have hbefore : (∀ d ∈ cs, isDigitOf base d = true) ∧ digitsValue base cs = n / base := by
          obtain hcs | ⟨rfl, hn⟩ := hcs
          · exact (ih.1 hcs).2
          · exact ⟨List.forall_mem_nil _, (Nat.div_eq_of_lt hn).symm⟩
        refine ⟨List.concat_ne_nil _ _, List.forall_mem_append.2 ⟨hbefore.1, ?_⟩, ?_⟩
        · exact List.forall_mem_singleton.2 (by rw [isDigitOf, hdigit, Option.isSome_some])
        · rw [digitsValue_concat, hbefore.2, hdigit, Option.getD_some, Nat.div_add_mod]
      · rintro ⟨-, hdigits, rfl⟩
        obtain ⟨hbefore, hlast⟩ := List.forall_mem_append.1 hdigits
        obtain ⟨d, hd⟩ := Option.isSome_iff_exists.1 (hlast c (List.mem_singleton_self c))
        obtain ⟨hlt, hc⟩ := (digitValue?_eq_some_iff_digitChar hbase).1 hd
        rw [digitsValue_concat, hd, Option.getD_some, Nat.mul_add_mod, Nat.mod_eq_of_lt hlt,
          Nat.mul_add_div (Nat.zero_lt_of_lt hone), Nat.div_eq_of_lt hlt, Nat.add_zero]
        refine ⟨hc, ?_⟩
        rcases eq_or_ne cs [] with rfl | hcs
        · exact .inr ⟨rfl, by rwa [digitsValue, List.foldl_nil, Nat.mul_zero, Nat.zero_add]⟩
        · exact .inl (ih.2 ⟨hcs, hbefore, rfl⟩)

/-- The numeral that is written is one. -/
theorem isNumeral_toDigits (hone : 1 < base) (hbase : base ≤ 16) (n : Nat) :
    IsNumeral base n (Nat.toDigits base n) := by
  have hsmall : ∀ d < base, (Nat.digitChar d).toLower = Nat.digitChar d := by
    intro d hd
    have hsixteen : d < 16 := lt_of_lt_of_le hd hbase
    clear hd
    interval_cases d <;> rfl
  induction n using Nat.strongRecOn with
  | ind n ih =>
      by_cases hn : n < base
      · rw [Nat.toDigits_of_lt_base hn]
        exact ⟨0, by rw [Nat.toDigits_of_lt_base hn, List.map_singleton, hsmall n hn]; rfl⟩
      · have hlast : n % base < base := Nat.mod_lt _ (Nat.zero_lt_of_lt hone)
        have hbefore : n / base < n := Nat.div_lt_self (by omega) hone
        rw [Nat.toDigits_of_base_le hone (Nat.le_of_not_lt hn)]
        exact (isNumeral_concat_iff hone).2 ⟨hsmall _ hlast, .inl (ih _ hbefore)⟩

theorem isDigitOf_toDigits (hone : 1 < base) (hbase : base ≤ 16) :
    ∀ c ∈ Nat.toDigits base n, isDigitOf base c = true :=
  ((isNumeral_iff hone hbase).1 (isNumeral_toDigits hone hbase n)).2.1

/-- There is no shorter numeral than the one that is written. -/
theorem IsNumeral.length_le {cs : List Char} (h : IsNumeral base n cs) :
    (Nat.toDigits base n).length ≤ cs.length := by
  obtain ⟨zeros, hzeros⟩ := h
  have hlength := congrArg List.length hzeros
  rw [List.length_map, List.length_append, List.length_replicate] at hlength
  omega

/-- The numeral that is written starts with a zero only if it is a zero. -/
theorem toDigits_led (hone : 1 < base) (hbase : base ≤ 16)
    (h : (Nat.toDigits base n).head? = some '0') : (Nat.toDigits base n).length ≤ 1 := by
  obtain ⟨cs, hcs⟩ := List.head?_eq_some_iff.1 h
  rcases eq_or_ne cs [] with rfl | hne
  · rw [hcs, List.length_singleton]
  · -- without the zero it would be a numeral all the same, and a shorter one
    obtain ⟨-, hdigits, hvalue⟩ := (isNumeral_iff hone hbase).1 (isNumeral_toDigits hone hbase n)
    rw [hcs] at hdigits hvalue
    have hzero : digitValue? base '0' = some 0 :=
      digitValue?_eq_some_iff.2 ⟨Nat.zero_lt_of_lt hone, .inl (by decide)⟩
    have hshort : digitsValue base cs = n := by
      rw [← hvalue, digitsValue, digitsValue, List.foldl_cons, hzero, Option.getD_some, Nat.mul_zero]
    have hlonger := ((isNumeral_iff hone hbase).2
      ⟨hne, fun c hc => hdigits c (List.mem_cons_of_mem _ hc), hshort⟩).length_le
    rw [hcs, List.length_cons] at hlonger
    omega

/-- There are no capitals among the digits below ten. -/
theorem IsNumeral.map_toLower {cs : List Char} (h : IsNumeral 10 n cs) : cs.map Char.toLower = cs := by
  obtain ⟨-, hdigits, -⟩ := (isNumeral_iff (by decide) (by decide)).1 h
  refine (List.map_congr_left fun c hc => ?_).trans (List.map_id cs)
  obtain ⟨d, hd⟩ := Option.isSome_iff_exists.1 (hdigits c hc)
  have hplace := digitValue?_eq_some_iff.1 hd
  rw [← Char.toNat_inj, toNat_toLower, if_neg (by omega), id]

namespace Net

/-! ## Numbers -/

/-- The digits that are taken for `n`. -/
structure NumberForm.Admits (form : NumberForm) (digits : List Char) (n : Nat) : Prop where
  numeral : IsNumeral form.base n digits
  width : ∀ w ∈ form.width, digits.length ≤ w
  led : form.leadingZero = false → digits.head? = some '0' → digits.length ≤ 1
  largest : n ≤ form.largest

/-- A text goes on with something else than a digit. -/
def Ends (base : Nat) (rest : List Char) : Prop :=
  ∀ c ∈ rest.head?, isDigitOf base c = false

theorem takeWhile_ends {base : Nat} {rest : List Char} (h : Ends base rest) :
    rest.takeWhile (isDigitOf base) = [] ∧ rest.dropWhile (isDigitOf base) = rest := by
  cases rest with
  | nil => exact ⟨rfl, rfl⟩
  | cons c rest =>
      have hc : isDigitOf base c = false := h c rfl
      rw [List.takeWhile_cons, List.dropWhile_cons, hc]
      exact ⟨rfl, rfl⟩

theorem ends_dropWhile (base : Nat) (cs : List Char) : Ends base (cs.dropWhile (isDigitOf base)) := by
  intro c hc
  have hfirst := List.head?_dropWhile_not (isDigitOf base) cs
  rw [hc] at hfirst
  exact Bool.eq_false_iff.2 (by simpa using hfirst)

/-- The conditions on the digits, with the digits known. -/
theorem readNumber_append {form : NumberForm} {digits rest : List Char}
    (hdigits : ∀ c ∈ digits, isDigitOf form.base c = true) (hrest : Ends form.base rest)
    {n : Nat} {left : List Char} :
    readNumber form (digits ++ rest) = some (n, left) ↔
      (digits ≠ [] ∧ (∀ w ∈ form.width, digits.length ≤ w) ∧
        (form.leadingZero = false → digits.head? = some '0' → digits.length ≤ 1) ∧
        digitsValue form.base digits ≤ form.largest) ∧
      digitsValue form.base digits = n ∧ rest = left := by
  obtain ⟨htake, hdrop⟩ := takeWhile_ends hrest
  simp only [readNumber, List.takeWhile_append_of_pos hdigits, List.dropWhile_append_of_pos hdigits,
    htake, hdrop, List.append_nil]
  split
  · rename_i hrefused
    refine iff_of_false (by simp) ?_
    rintro ⟨⟨hwritten, hwidth, hled, hlargest⟩, -⟩
    simp only [Bool.or_eq_true, Bool.and_eq_true, List.isEmpty_iff, Option.any_eq_true,
      decide_eq_true_eq, Bool.not_eq_true', hwritten, false_or] at hrefused
    obtain (⟨w, hw, hlong⟩ | ⟨⟨hzero, hhead⟩, hlong⟩) | hlarge := hrefused
    · exact Nat.not_lt.2 (hwidth w hw) hlong
    · exact Nat.not_lt.2 (hled hzero hhead) hlong
    · exact Nat.not_lt.2 hlargest hlarge
  · rename_i htaken
    simp only [Bool.or_eq_true, Bool.and_eq_true, List.isEmpty_iff, Option.any_eq_true,
      decide_eq_true_eq, Bool.not_eq_true', not_or, not_and, not_exists, Nat.not_lt] at htaken
    obtain ⟨⟨⟨hwritten, hwidth⟩, hled⟩, hlargest⟩ := htaken
    rw [Option.some.injEq, Prod.mk.injEq]
    exact (and_iff_right ⟨hwritten, hwidth, fun hzero hhead => hled ⟨hzero, hhead⟩, hlargest⟩).symm

/-- **A number that is read** has all the digits at the front of the text, and they are admitted. -/
theorem readNumber_eq_some_iff {form : NumberForm} (hone : 1 < form.base) (hbase : form.base ≤ 16)
    {cs rest : List Char} {n : Nat} :
    readNumber form cs = some (n, rest) ↔
      ∃ digits, cs = digits ++ rest ∧ form.Admits digits n ∧ Ends form.base rest := by
  constructor
  · intro h
    have hdigits : ∀ c ∈ cs.takeWhile (isDigitOf form.base), isDigitOf form.base c = true :=
      fun c hc => List.mem_takeWhile_imp hc
    rw [← List.takeWhile_append_dropWhile (p := isDigitOf form.base) (l := cs),
      readNumber_append hdigits (ends_dropWhile _ _)] at h
    obtain ⟨⟨hwritten, hwidth, hled, hlargest⟩, rfl, rfl⟩ := h
    exact ⟨_, List.takeWhile_append_dropWhile.symm,
      ⟨(isNumeral_iff hone hbase).2 ⟨hwritten, hdigits, rfl⟩, hwidth, hled, hlargest⟩,
      ends_dropWhile _ _⟩
  · rintro ⟨digits, rfl, hadmits, hrest⟩
    obtain ⟨hwritten, hdigits, hvalue⟩ := (isNumeral_iff hone hbase).1 hadmits.numeral
    refine (readNumber_append hdigits hrest).2
      ⟨⟨hwritten, hadmits.width, hadmits.led, ?_⟩, hvalue, rfl⟩
    rw [hvalue]
    exact hadmits.largest

/-- A byte of a dotted quad can be written in one way. -/
theorem octetForm_admits_iff {digits : List Char} {n : Nat} :
    octetForm.Admits digits n ↔ digits = Nat.toDigits 10 n ∧ n ≤ 255 := by
  constructor
  · intro h
    refine ⟨?_, h.largest⟩
    obtain ⟨zeros, hzeros⟩ := h.numeral
    rw [show octetForm.base = 10 from rfl, h.numeral.map_toLower] at hzeros
    cases zeros with
    | zero => exact hzeros
    | succ zeros =>
        have hlength := h.led rfl (by rw [hzeros]; rfl)
        have hpositive := Nat.length_toDigits_pos (b := 10) (n := n)
        rw [hzeros, List.length_append, List.length_replicate] at hlength
        omega
  · rintro ⟨rfl, hn⟩
    refine ⟨isNumeral_toDigits (by decide) (by decide) n, ?_, fun _ => toDigits_led (by decide) (by decide),
      hn⟩
    rintro w ⟨⟩
    exact (Nat.length_toDigits_le_iff (by decide) (by decide)).2 (by omega)

/-- A group of an IPv6 address is any numeral of up to four digits. -/
theorem groupForm_admits_iff {digits : List Char} {n : Nat} :
    groupForm.Admits digits n ↔ IsNumeral 16 n digits ∧ digits.length ≤ 4 := by
  constructor
  · intro h
    exact ⟨h.numeral, h.width 4 rfl⟩
  · rintro ⟨hnumeral, hlength⟩
    refine ⟨hnumeral, by rintro w ⟨⟩; exact hlength, nofun, ?_⟩
    have hsmall := (Nat.length_toDigits_le_iff (by decide) (by decide)).1
      (hnumeral.length_le.trans hlength)
    exact Nat.le_of_lt_succ hsmall

/-- The numeral of a port is taken for it. -/
theorem portForm_admits (port : UInt16) : portForm.Admits (Nat.toDigits 10 port.toNat) port.toNat :=
  ⟨isNumeral_toDigits (by decide) (by decide) _, nofun, nofun, Nat.le_of_lt_succ port.toNat_lt⟩

end Net

end EchoLog
