import EchoLog.Proofs.Net.Numerals
/-!
# The texts of IP addresses

How an IP address may be written.  An IPv4 address has one text, its dotted quad.  An IPv6 address is
written as groups parted by colons, each group as a numeral of up to four digits; one `::` may stand for
groups of zero, and a dotted quad for the last two groups.  The readers take these texts and no others
(`readQuad_eq_some_iff`, `whole_readIpv6_iff`).
-/

namespace EchoLog

/-! ## Grammar -/

namespace Ipv6

/-- A group is written in up to four digits, with zeros before it and capitals in it or not. -/
def IsGroup (group : UInt16) (cs : List Char) : Prop :=
  IsNumeral 16 group.toNat cs ∧ cs.length ≤ 4

theorem IsGroup.digits {group : UInt16} {cs : List Char} (h : IsGroup group cs) :
    ∀ c ∈ cs, isDigitOf 16 c = true :=
  ((isNumeral_iff (by decide) (by decide)).1 h.1).2.1

/-- Groups parted by colons, the last two of them as a dotted quad if there is a `quad`. -/
inductive Run : (quad : Bool) → List UInt16 → List Char → Prop where
  | group {group : UInt16} {cs : List Char} (h : IsGroup group cs) : Run false [group] cs
  | quad (q : Ipv4) : Run true q.groups q.text.toList
  | more {group : UInt16} {cs : List Char} {quad : Bool} {groups : List UInt16} {rest : List Char}
      (h : IsGroup group cs) (hrest : Run quad groups rest) :
      Run quad (group :: groups) (cs ++ ':' :: rest)

/-- A run of groups, or nothing. -/
inductive Side : (quad : Bool) → List UInt16 → List Char → Prop where
  | empty : Side false [] []
  | run {quad : Bool} {groups : List UInt16} {cs : List Char} (h : Run quad groups cs) :
      Side quad groups cs

/-- The texts of an address. -/
inductive IsText (a : Ipv6) : List Char → Prop where
  | whole {quad : Bool} {cs : List Char} (h : Run quad a.groups cs) : IsText a cs
  /-- `::` stands for at least one group, and a quad may stand at the end only. -/
  | compressed {quad : Bool} {before after : List UInt16} {zeros : Nat} {cs ds : List Char}
      (hgroups : a.groups = before ++ List.replicate (zeros + 1) 0 ++ after)
      (hbefore : Side false before cs) (hafter : Side quad after ds) :
      IsText a (cs ++ ':' :: ':' :: ds)

end Ipv6

/-- The texts of an address as a host: an IPv6 address may stand in square brackets. -/
inductive IpAddress.IsText : IpAddress → List Char → Prop where
  | quad (q : Ipv4) : IsText (.v4 q) q.text.toList
  | bare {a : Ipv6} {cs : List Char} (h : a.IsText cs) : IsText (.v6 a) cs
  | bracketed {a : Ipv6} {cs : List Char} (h : a.IsText cs) : IsText (.v6 a) ('[' :: cs ++ [']'])

/-! ## Dotted quads -/

theorem Ipv4.text_toList (q : Ipv4) :
    q.text.toList = Nat.toDigits 10 q.a.toNat ++ '.' :: (Nat.toDigits 10 q.b.toNat ++
      '.' :: (Nat.toDigits 10 q.c.toNat ++ '.' :: Nat.toDigits 10 q.d.toNat)) := by
  change (numeral 10 q.a.toNat ++ "." ++ numeral 10 q.b.toNat ++ "." ++ numeral 10 q.c.toNat ++ "." ++
    numeral 10 q.d.toNat).toList = _
  simp [numeral]

namespace Net

theorem readOctet_eq_some_iff {cs rest : List Char} {n : Nat} :
    readNumber octetForm cs = some (n, rest) ↔
      ∃ byte : UInt8, n = byte.toNat ∧ cs = Nat.toDigits 10 byte.toNat ++ rest ∧ Ends 10 rest := by
  rw [readNumber_eq_some_iff (by decide) (by decide)]
  simp only [octetForm_admits_iff]
  constructor
  · rintro ⟨digits, rfl, ⟨rfl, hn⟩, hrest⟩
    have hbyte : n.toUInt8.toNat = n :=
      UInt8.toNat_ofNat_of_lt' (by simpa [UInt8.size] using Nat.lt_succ_of_le hn)
    exact ⟨n.toUInt8, hbyte.symm, by rw [hbyte], hrest⟩
  · rintro ⟨byte, rfl, rfl, hrest⟩
    exact ⟨_, rfl, ⟨rfl, Nat.le_of_lt_succ byte.toNat_lt⟩, hrest⟩

theorem readChar_eq_some_iff {c : Char} {cs rest : List Char} :
    readChar c cs = some rest ↔ cs = c :: rest := by
  cases cs with
  | nil => simp [readChar]
  | cons x cs =>
      rw [readChar, ite_eq_iff]
      simp [eq_comm]

theorem ends_cons {base : Nat} {c : Char} (rest : List Char) (h : isDigitOf base c = false) :
    Ends base (c :: rest) := by
  rintro x ⟨⟩
  exact h

/-- **A dotted quad is read from its text**, and only from it. -/
theorem readQuad_eq_some_iff {cs rest : List Char} {q : Ipv4} :
    readQuad cs = some (q, rest) ↔ cs = q.text.toList ++ rest ∧ Ends 10 rest := by
  simp only [readQuad, bind, Option.bind_eq_some_iff, Prod.exists, readOctet_eq_some_iff, readChar_eq_some_iff]
  constructor
  · rintro ⟨_, _, ⟨a, rfl, rfl, -⟩, _, rfl, _, _, ⟨b, rfl, rfl, -⟩, _, rfl, _, _, ⟨c, rfl, rfl, -⟩, _, rfl,
      _, _, ⟨d, rfl, rfl, hrest⟩, hquad⟩
    simp only [pure, Option.some.injEq, Prod.mk.injEq, Nat.toUInt8_eq, UInt8.ofNat_toNat] at hquad
    obtain ⟨rfl, rfl⟩ := hquad
    simp only [Ipv4.text_toList, List.append_assoc, List.cons_append]
    exact ⟨trivial, hrest⟩
  · rintro ⟨rfl, hrest⟩
    have hdot : ∀ more, Ends 10 ('.' :: more) := fun more => ends_cons more (by decide)
    simp only [Ipv4.text_toList, List.append_assoc, List.cons_append]
    exact ⟨_, _, ⟨q.a, rfl, rfl, hdot _⟩, _, rfl, _, _, ⟨q.b, rfl, rfl, hdot _⟩, _, rfl,
      _, _, ⟨q.c, rfl, rfl, hdot _⟩, _, rfl, _, _, ⟨q.d, rfl, rfl, hrest⟩, by simp [pure]⟩

/-! ## Groups -/

theorem readGroup_eq_some_iff {cs rest : List Char} {n : Nat} :
    readNumber groupForm cs = some (n, rest) ↔
      ∃ (group : UInt16) (digits : List Char),
        n = group.toNat ∧ cs = digits ++ rest ∧ Ipv6.IsGroup group digits ∧ Ends 16 rest := by
  rw [readNumber_eq_some_iff (by decide) (by decide)]
  constructor
  · rintro ⟨digits, rfl, hdigits, hrest⟩
    have hgroup : n.toUInt16.toNat = n := UInt16.toNat_ofNat_of_lt' (Nat.lt_succ_of_le hdigits.largest)
    refine ⟨n.toUInt16, digits, hgroup.symm, rfl, ?_, hrest⟩
    rw [Ipv6.IsGroup, hgroup]
    exact groupForm_admits_iff.1 hdigits
  · rintro ⟨group, digits, rfl, rfl, hdigits, hrest⟩
    exact ⟨digits, rfl, groupForm_admits_iff.2 hdigits, hrest⟩

theorem readNumber_ends {form : NumberForm} {cs : List Char} (h : Ends form.base cs) :
    readNumber form cs = none := by
  simp only [readNumber, (takeWhile_ends h).1, List.isEmpty_nil, Bool.true_or, if_pos]

/-- There is no quad where the first number is not followed by a dot. -/
theorem readQuad_eq_none {digits rest : List Char} (hdigits : ∀ c ∈ digits, isDigitOf 16 c = true)
    (hrest : Ends 16 rest) (hdot : rest.head? ≠ some '.') : readQuad (digits ++ rest) = none := by
  rw [Option.eq_none_iff_forall_ne_some]
  rintro ⟨q, left⟩ hread
  have hquad : ∀ c ∈ Nat.toDigits 10 q.a.toNat, isDigitOf 16 c = true := fun c hc =>
    isDigitOf_of_le (by decide) (isDigitOf_toDigits (by decide) (by decide) c hc)
  -- what follows the digits is the dot on one side, and `rest` on the other
  have hfollow := congrArg (List.dropWhile (isDigitOf 16)) (readQuad_eq_some_iff.1 hread).1
  rw [List.dropWhile_append_of_pos hdigits, (takeWhile_ends hrest).2, Ipv4.text_toList, List.append_assoc,
    List.dropWhile_append_of_pos hquad, List.cons_append, List.dropWhile_cons_of_neg (by decide)] at hfollow
  exact hdot (by rw [hfollow, List.head?_cons])

/-- Where groups end for good: with the text, at a bracket, or at `::`. -/
inductive Stop : List Char → Prop where
  | nothing : Stop []
  | bracket (rest : List Char) : Stop (']' :: rest)
  | gap (rest : List Char) : Stop (':' :: ':' :: rest)

theorem Stop.ends {base : Nat} {rest : List Char} (h : Stop rest) : Ends base rest := by
  cases h with
  | nothing => exact nofun
  | bracket rest => exact ends_cons rest rfl
  | gap rest => exact ends_cons _ rfl

theorem Stop.head?_ne {rest : List Char} (h : Stop rest) : rest.head? ≠ some '.' := by
  cases h <;> simp

theorem readGroups_none {left : Nat} {first : Bool} {cs body : List Char}
    (hbody : (if first then some cs else readChar ':' cs) = some body) (hends : Ends 16 body)
    (hdot : body.head? ≠ some '.') : readGroups left first cs = ⟨[], false, cs⟩ := by
  cases left with
  | zero => rfl
  | succ left =>
      have hquad : readQuad body = none := readQuad_eq_none (List.forall_mem_nil _) hends hdot
      have hgroup : readNumber groupForm body = none := readNumber_ends hends
      simp only [readGroups, hbody, hquad, hgroup, ite_self]

theorem readGroups_stop {left : Nat} {first : Bool} {rest : List Char} (h : Stop rest) :
    readGroups left first rest = ⟨[], false, rest⟩ := by
  cases first with
  | true => exact readGroups_none rfl h.ends h.head?_ne
  | false =>
      cases h with
      | gap rest => exact readGroups_none rfl (ends_cons rest rfl) (by simp)
      | nothing => cases left <;> rfl
      | bracket rest => cases left <;> rfl

/-- The text of groups, after the colon that is before all but the first. -/
def led (first : Bool) (cs : List Char) : List Char :=
  if first then cs else ':' :: cs

theorem readGroups_led {left : Nat} {first : Bool} {cs : List Char} :
    readGroups (left + 1) first (led first cs) =
      match if left ≥ 1 then readQuad cs else none with
      | some (quad, rest) => ⟨quad.groups, true, rest⟩
      | none =>
        match readNumber groupForm cs with
        | none => ⟨[], false, led first cs⟩
        | some (group, rest) =>
          let more := readGroups left false rest
          ⟨group.toUInt16 :: more.groups, more.quad, more.rest⟩ := by
  cases first <;> rfl

/-- A group is read before what can follow it. -/
theorem readGroups_group {group : UInt16} {cs rest : List Char} (h : Ipv6.IsGroup group cs)
    (hends : Ends 16 rest) (hdot : rest.head? ≠ some '.') (left : Nat) (first : Bool) :
    readGroups (left + 1) first (led first (cs ++ rest)) =
      let more := readGroups left false rest
      ⟨group :: more.groups, more.quad, more.rest⟩ := by
  have hquad : readQuad (cs ++ rest) = none := readQuad_eq_none h.digits hends hdot
  have hgroup : readNumber groupForm (cs ++ rest) = some (group.toNat, rest) :=
    readGroup_eq_some_iff.2 ⟨group, cs, rfl, rfl, h, hends⟩
  simp only [readGroups_led, hquad, ite_self, hgroup, Nat.toUInt16_eq, UInt16.ofNat_toNat]

/-- **A run of groups is read from its text**, up to where it stops. -/
theorem readGroups_run {quad : Bool} {groups : List UInt16} {cs rest : List Char}
    (h : Ipv6.Run quad groups cs) (hrest : Stop rest) {left : Nat} (hleft : groups.length ≤ left)
    (first : Bool) : readGroups left first (led first (cs ++ rest)) = ⟨groups, quad, rest⟩ := by
  induction h generalizing left first with
  | group h =>
      obtain ⟨left, rfl⟩ := Nat.exists_eq_add_of_le' hleft
      exact (readGroups_group h hrest.ends hrest.head?_ne left first).trans
        (by rw [readGroups_stop hrest])
  | quad q =>
      obtain ⟨left, rfl⟩ := Nat.exists_eq_add_of_le' hleft
      have hquad : readQuad (q.text.toList ++ rest) = some (q, rest) :=
        readQuad_eq_some_iff.2 ⟨rfl, hrest.ends⟩
      rw [show left + q.groups.length = left + 1 + 1 from rfl, readGroups_led,
        if_pos (Nat.le_add_left 1 left), hquad]
  | more h _ ih =>
      obtain ⟨left, rfl⟩ := Nat.exists_eq_add_of_le' hleft
      rw [List.append_assoc, List.cons_append, List.length_cons, ← Nat.add_assoc,
        readGroups_group h (ends_cons _ (by decide)) (by simp)]
      have hmore := ih (Nat.le_add_left _ left) false
      rw [led, if_neg Bool.false_ne_true] at hmore
      rw [hmore]

/-- **Groups that are read are a run**, if there are any. -/
theorem run_of_readGroups (left : Nat) (first : Bool) (cs : List Char) :
    (readGroups left first cs).groups.length ≤ left ∧
      (readGroups left first cs = ⟨[], false, cs⟩ ∨
        ∃ text, cs = led first (text ++ (readGroups left first cs).rest) ∧
          Ipv6.Run (readGroups left first cs).quad (readGroups left first cs).groups text) := by
  induction left generalizing first cs with
  | zero => exact ⟨Nat.le_refl _, .inl rfl⟩
  | succ left ih =>
      rcases hbody : (if first then some cs else readChar ':' cs) with _ | body
      · have hnone : readGroups (left + 1) first cs = ⟨[], false, cs⟩ := by
          simp only [readGroups, hbody]
        rw [hnone]
        exact ⟨Nat.zero_le _, .inl rfl⟩
      · obtain rfl : cs = led first body := by
          cases first with
          | true => exact Option.some.inj hbody
          | false => exact readChar_eq_some_iff.1 hbody
        rw [readGroups_led]
        split
        · rename_i q rest hquad
          obtain ⟨hleft, hquad⟩ := Option.ite_none_right_eq_some.1 hquad
          exact ⟨Nat.succ_le_succ hleft,
            .inr ⟨q.text.toList, congrArg _ (readQuad_eq_some_iff.1 hquad).1, .quad q⟩⟩
        · split
          · exact ⟨Nat.zero_le _, .inl rfl⟩
          · rename_i n rest hgroup
            obtain ⟨group, digits, rfl, rfl, hdigits, -⟩ := readGroup_eq_some_iff.1 hgroup
            obtain ⟨hlength, hmore⟩ := ih false rest
            simp only [Nat.toUInt16_eq, UInt16.ofNat_toNat]
            refine ⟨Nat.succ_le_succ hlength, .inr ?_⟩
            obtain hnone | ⟨text, hrest, hrun⟩ := hmore
            · rw [hnone]
              exact ⟨digits, rfl, .group hdigits⟩
            · refine ⟨digits ++ ':' :: text, ?_, .more hdigits hrun⟩
              rw [List.append_assoc, List.cons_append]
              exact congrArg (fun more => led first (digits ++ more)) hrest

/-! ## IPv6 addresses -/

/-- What is read on one side of `::`. -/
theorem readGroups_side {quad : Bool} {groups : List UInt16} {cs rest : List Char}
    (h : Ipv6.Side quad groups cs) (hrest : Stop rest) {left : Nat} (hleft : groups.length ≤ left) :
    readGroups left true (cs ++ rest) = ⟨groups, quad, rest⟩ := by
  cases h with
  | empty => exact readGroups_stop hrest
  | run h => exact readGroups_run h hrest hleft true

theorem side_of_readGroups (left : Nat) (cs : List Char) :
    ∃ text, cs = text ++ (readGroups left true cs).rest ∧
      Ipv6.Side (readGroups left true cs).quad (readGroups left true cs).groups text := by
  obtain ⟨-, hnone | ⟨text, hcs, hrun⟩⟩ := run_of_readGroups left true cs
  · rw [hnone]
    exact ⟨[], rfl, .empty⟩
  · exact ⟨text, hcs, .run hrun⟩

/-- **An IPv6 address is read from each of its texts**, up to where it stops. -/
theorem readIpv6_text {a : Ipv6} {cs rest : List Char} (h : a.IsText cs) (hrest : Stop rest) :
    readIpv6 (cs ++ rest) = some (a, rest) := by
  cases h with
  | whole h =>
      have hread := readGroups_run h hrest (Nat.le_of_eq a.eight) true
      rw [led, if_pos rfl] at hread
      simp only [readIpv6, hread, a.eight, dif_pos]
  | @compressed quad before after zeros cs ds hgroups hbefore hafter =>
      have height := a.eight
      rw [hgroups, List.length_append, List.length_append, List.length_replicate] at height
      have hhead : readGroups 8 true (cs ++ ':' :: ':' :: (ds ++ rest)) =
          ⟨before, false, ':' :: ':' :: (ds ++ rest)⟩ := readGroups_side hbefore (.gap _) (by omega)
      have htail : readGroups (7 - before.length) true (ds ++ rest) = ⟨after, quad, rest⟩ :=
        readGroups_side hafter hrest (by omega)
      have hzeros : 8 - before.length - after.length = zeros + 1 := by omega
      rw [List.append_assoc, List.cons_append, List.cons_append]
      simp only [readIpv6, hhead, htail, hzeros, ← hgroups, a.eight]
      rw [dif_neg (by omega), if_neg Bool.false_ne_true, dif_pos trivial]

/-- **What is read as an IPv6 address is one of its texts.** -/
theorem text_of_readIpv6 {a : Ipv6} {cs rest : List Char} (h : readIpv6 cs = some (a, rest)) :
    ∃ text, cs = text ++ rest ∧ a.IsText text := by
  obtain ⟨text, hcs, hside⟩ := side_of_readGroups 8 cs
  rw [readIpv6] at h
  rcases hhead : readGroups 8 true cs with ⟨before, quad, left⟩
  rw [hhead] at hcs hside h
  dsimp only at hcs hside h
  split at h
  · rename_i height
    obtain ⟨rfl, rfl⟩ : ⟨before, height⟩ = a ∧ left = rest := by
      simpa only [Option.some.injEq, Prod.mk.injEq] using h
    refine ⟨text, hcs, ?_⟩
    cases hside with
    | empty => cases height
    | run hrun => exact .whole hrun
  · cases quad with
    | true => exact absurd h (by simp)
    | false =>
        rw [if_neg Bool.false_ne_true] at h
        split at h
        · rename_i more
          obtain ⟨behind, hmore, hafter⟩ := side_of_readGroups (7 - before.length) more
          have hshort := (run_of_readGroups (7 - before.length) true more).1
          rcases htail : readGroups (7 - before.length) true more with ⟨after, quad, left⟩
          rw [htail] at hmore hafter hshort h
          dsimp only at hmore hafter hshort h
          split at h
          · rename_i height
            obtain ⟨rfl, rfl⟩ : ⟨_, height⟩ = a ∧ left = rest := by
              simpa only [Option.some.injEq, Prod.mk.injEq] using h
            have hzeros :
                8 - before.length - after.length = (7 - before.length - after.length) + 1 := by
              rw [List.length_append, List.length_append, List.length_replicate] at height
              omega
            refine ⟨text ++ ':' :: ':' :: behind, ?_, .compressed (by rw [← hzeros]) hside hafter⟩
            rw [hcs, hmore, List.append_assoc]
            rfl
          · exact absurd h (by simp)
        · exact absurd h (by simp)

theorem whole_eq_some_iff {α : Type} {read : List Char → Option (α × List Char)} {cs : List Char} {x : α} :
    whole read cs = some x ↔ read cs = some (x, []) := by
  rw [whole]
  split
  · rename_i y hread
    rw [hread, Option.some.injEq, Option.some.injEq, Prod.mk.injEq, and_iff_left rfl]
  · rename_i hother
    exact iff_of_false nofun (hother x)

/-- **The texts of IPv6 addresses are those that are read as a whole.** -/
theorem whole_readIpv6_iff {a : Ipv6} {cs : List Char} : whole readIpv6 cs = some a ↔ a.IsText cs := by
  rw [whole_eq_some_iff]
  constructor
  · intro h
    obtain ⟨text, rfl, htext⟩ := text_of_readIpv6 h
    rwa [List.append_nil]
  · intro h
    have hread := readIpv6_text h .nothing
    rwa [List.append_nil] at hread

end Net

end EchoLog
