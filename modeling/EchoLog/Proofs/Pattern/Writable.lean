import EchoLog.Timestamp.Record
/-!
# Patterns that can be written

A pattern that can be read is a row of literal characters and fields (`Spells`), and a field is spelled by
its own characters whatever comes after them (`IsField`).  So a readable beginning of a pattern stays what
it is when more is put behind it, and a field can be told from its text: the loose offset, the one item
that nothing can be written for, is the field spelled `%#z`.

A readable pattern without that field has a text for every time, and one with it has a text for none
(`record?_eq_none_iff`).
-/

namespace EchoLog.Pattern

/-! ## Fields -/

/-- Characters that are read as a field, whatever follows them. -/
structure IsField (spelled : List Char) (items : List Item) : Prop where
  read : ∀ more, field? (spelled ++ more) = some (items, spelled.length)
  loose : .looseOffset ∈ items → spelled = ['#', 'z']

theorem field?_of_padOf? {c : Char} {pad : Pad} (h : padOf? c = some pad) (letter : Char)
    (rest : List Char) :
    field? (c :: letter :: rest) =
      (numberOf? letter).map fun (field, _) => ([.number field pad], 2) := by
  unfold padOf? at h
  split at h <;> cases h <;> rfl

theorem field?_of_numberOf? {c : Char} {field : Number} {pad : Pad}
    (h : numberOf? c = some (field, pad)) (rest : List Char) :
    field? (c :: rest) = some ([.number field pad], 1) := by
  unfold numberOf? at h
  split at h <;> cases h <;> rfl

theorem field?_of_letterItems? {c : Char} {items : List Item} (h : letterItems? c = some items)
    (rest : List Char) : field? (c :: rest) = some (items, 1) := by
  unfold letterItems? at h
  split at h <;> cases h <;> rfl

theorem looseOffset_not_mem_letterItems {c : Char} {items : List Item}
    (h : letterItems? c = some items) : .looseOffset ∉ items := by
  unfold letterItems? at h
  split at h <;> cases h <;> decide

/-- **What is read as a field is spelled by the first characters**, and would be read so with anything
behind them. -/
theorem isField_of_field? {cs : List Char} {items : List Item} {n : Nat}
    (h : field? cs = some (items, n)) :
    ∃ spelled rest, cs = spelled ++ rest ∧ spelled.length = n ∧ IsField spelled items := by
  have hspelled : ∀ {items' : List Item} (spelled rest : List Char), cs = spelled ++ rest →
      (∀ more, field? (spelled ++ more) = some (items', spelled.length)) →
      (.looseOffset ∈ items' → spelled = ['#', 'z']) →
      ∃ spelled rest, cs = spelled ++ rest ∧ spelled.length = n ∧ IsField spelled items := by
    intro items' spelled rest hcs hread hloose
    rw [hcs, hread rest] at h
    cases h
    exact ⟨spelled, rest, hcs, rfl, hread, hloose⟩
  have hwhole := h
  unfold field? at h
  split at h
  · exact hspelled ['#', 'z'] _ rfl (fun _ => rfl) fun _ => rfl
  · exact hspelled [':', ':', ':', 'z'] _ rfl (fun _ => rfl) (by decide)
  · exact hspelled [':', ':', 'z'] _ rfl (fun _ => rfl) (by decide)
  · exact hspelled [':', 'z'] _ rfl (fun _ => rfl) (by decide)
  · exact hspelled ['.', '3', 'f'] _ rfl (fun _ => rfl) (by decide)
  · exact hspelled ['.', '6', 'f'] _ rfl (fun _ => rfl) (by decide)
  · exact hspelled ['.', '9', 'f'] _ rfl (fun _ => rfl) (by decide)
  · exact hspelled ['.', 'f'] _ rfl (fun _ => rfl) (by decide)
  · exact hspelled ['3', 'f'] _ rfl (fun _ => rfl) (by decide)
  · exact hspelled ['6', 'f'] _ rfl (fun _ => rfl) (by decide)
  · exact hspelled ['9', 'f'] _ rfl (fun _ => rfl) (by decide)
  · rename_i c rest _ _ _ _ _ _ _ _ _ _ _
    cases hpad : padOf? c with
    | some pad =>
        cases rest with
        | nil =>
            rw [hpad] at h
            cases h
        | cons letter rest =>
            cases hnumber : numberOf? letter with
            | none =>
                rw [field?_of_padOf? hpad, hnumber] at hwhole
                cases hwhole
            | some number =>
                have hread : ∀ more,
                    field? ([c, letter] ++ more) = some ([.number number.1 pad], 2) := by
                  intro more
                  rw [List.cons_append, List.singleton_append, field?_of_padOf? hpad, hnumber]
                  rfl
                exact hspelled [c, letter] rest rfl hread (by simp)
    | none =>
        cases hnumber : numberOf? c with
        | some number =>
            exact hspelled [c] rest rfl (field?_of_numberOf? hnumber) (by simp)
        | none =>
            cases hletter : letterItems? c with
            | some _ =>
                refine hspelled [c] rest rfl (field?_of_letterItems? hletter) ?_
                intro hmem
                exact absurd hmem (looseOffset_not_mem_letterItems hletter)
            | none =>
                simp only [hpad, numberItem?, hnumber, hletter, Option.map_none] at h
                cases h
  · cases h

/-! ## Patterns -/

/-- Characters that spell items: literal ones and fields, one after another. -/
inductive Spells : List Char → List Item → Prop where
  | nil : Spells [] []
  | literal {c : Char} {cs : List Char} {items : List Item} : c ≠ '%' → Spells cs items →
      Spells (c :: cs) (.literal c :: items)
  | field {spelled cs : List Char} {items more : List Item} : IsField spelled items →
      Spells cs more → Spells ('%' :: (spelled ++ cs)) (items ++ more)

theorem itemsOf?_literal {c : Char} (h : c ≠ '%') (cs : List Char) :
    itemsOf? (c :: cs) = (itemsOf? cs).map (.literal c :: ·) := by
  rw [itemsOf?, if_neg h]

theorem itemsOf?_field {spelled : List Char} {items : List Item} (h : IsField spelled items)
    (cs : List Char) : itemsOf? ('%' :: (spelled ++ cs)) = (itemsOf? cs).map (items ++ ·) := by
  rw [itemsOf?, if_pos rfl]
  split
  · rename_i hnone
    rw [h.read] at hnone
    cases hnone
  · rename_i hread
    rw [h.read] at hread
    cases hread
    rw [List.drop_left]

/-- **What is spelled stays so with more behind it.** -/
theorem Spells.itemsOf?_append {cs : List Char} {items : List Item} (h : Spells cs items)
    (more : List Char) : itemsOf? (cs ++ more) = (itemsOf? more).map (items ++ ·) := by
  induction h with
  | nil => exact Option.map_id'.symm
  | @literal c cs items hc _ ih =>
      rw [List.cons_append, itemsOf?_literal hc, ih, Option.map_map]
      rfl
  | @field spelled cs items rest hfield _ ih =>
      rw [List.cons_append, List.append_assoc, itemsOf?_field hfield, ih, Option.map_map]
      simp only [Function.comp_def, List.append_assoc]

theorem spells_of_itemsOf? {cs : List Char} {items : List Item} (h : itemsOf? cs = some items) :
    Spells cs items := by
  fun_induction itemsOf? cs generalizing items with
  | case1 =>
      cases h
      exact .nil
  | case2 rest hnone => cases h
  | case3 rest its n hread ih =>
      obtain ⟨more, hmore, rfl⟩ := Option.map_eq_some_iff.1 h
      obtain ⟨spelled, left, rfl, rfl, hfield⟩ := isField_of_field? hread
      rw [List.drop_left] at hmore ih
      exact .field hfield (ih hmore)
  | case4 c rest hc ih =>
      obtain ⟨more, hmore, rfl⟩ := Option.map_eq_some_iff.1 h
      exact .literal hc (ih hmore)

/-- **A pattern is read as the items that it spells.** -/
theorem spells_iff {cs : List Char} {items : List Item} : Spells cs items ↔ itemsOf? cs = some items := by
  refine ⟨?_, spells_of_itemsOf?⟩
  intro h
  have happend := h.itemsOf?_append []
  rw [List.append_nil] at happend
  rw [happend, itemsOf?, Option.map_some, List.append_nil]

/-! ## The field that cannot be written -/

/-- Whether a pattern has the field `%#z`: a readable pattern stands before it, so its percent sign is not
a part of another field. -/
def HasLooseOffset (pattern : String) : Prop :=
  ∃ before after, pattern = before ++ "%#z" ++ after ∧ (parse? before).isSome = true

theorem isField_looseOffset : IsField ['#', 'z'] [.looseOffset] :=
  ⟨fun _ => rfl, fun _ => rfl⟩

/-- A loose offset has a place in the text. -/
theorem Spells.exists_looseOffset {cs : List Char} {items : List Item} (h : Spells cs items)
    (hmem : .looseOffset ∈ items) :
    ∃ before after xs, cs = before ++ '%' :: '#' :: 'z' :: after ∧ Spells before xs := by
  induction h with
  | nil => cases hmem
  | @literal c cs items hc _ ih =>
      obtain ⟨before, after, xs, rfl, hbefore⟩ := ih (by simpa using hmem)
      exact ⟨c :: before, after, _, rfl, .literal hc hbefore⟩
  | @field spelled cs items more hfield _ ih =>
      rcases List.mem_append.1 hmem with hmem | hmem
      · rw [hfield.loose hmem]
        exact ⟨[], cs, [], rfl, .nil⟩
      · obtain ⟨before, after, xs, rfl, hbefore⟩ := ih hmem
        refine ⟨'%' :: (spelled ++ before), after, _, ?_, .field hfield hbefore⟩
        rw [List.cons_append, List.append_assoc]

/-- **A loose offset is read where its field stands in the text**, and nowhere else. -/
theorem looseOffset_mem_iff {pattern : String} {items : List Item} (h : parse? pattern = some items) :
    .looseOffset ∈ items ↔ HasLooseOffset pattern := by
  constructor
  · intro hmem
    obtain ⟨before, after, xs, hcs, hbefore⟩ := (spells_iff.2 h).exists_looseOffset hmem
    refine ⟨String.ofList before, String.ofList after, ?_, ?_⟩
    · refine String.toList_inj.1 ?_
      simp only [hcs, String.toList_append, String.toList_ofList, List.append_assoc]
      rfl
    · rw [parse?, String.toList_ofList, spells_iff.1 hbefore]
      rfl
  · rintro ⟨before, after, rfl, hbefore⟩
    obtain ⟨xs, hxs⟩ := Option.isSome_iff_exists.1 hbefore
    have hfield := itemsOf?_field isField_looseOffset after.toList
    rw [parse?, String.toList_append, String.toList_append, List.append_assoc,
      (spells_iff.2 hxs).itemsOf?_append] at h
    obtain ⟨ys, hys, rfl⟩ := Option.map_eq_some_iff.1 h
    obtain ⟨zs, -, rfl⟩ := Option.map_eq_some_iff.1 (hfield.symm.trans hys)
    simp

/-! ## Texts -/

theorem itemText?_eq_none_iff (t : LocalTime) (item : Item) :
    itemText? t item = none ↔ item = .looseOffset := by
  cases item <;> simp only [itemText?, reduceCtorEq]

/-- Items have a text, for whatever time, exactly when a loose offset is not among them. -/
theorem render?_eq_none_iff (t : LocalTime) (items : List Item) :
    render? t items = none ↔ .looseOffset ∈ items := by
  induction items with
  | nil => simp [render?]
  | cons item rest ih =>
      rw [List.mem_cons, ← ih, eq_comm (b := item), ← itemText?_eq_none_iff t item, render?]
      cases itemText? t item with
      | none => simp
      | some text => simp

end EchoLog.Pattern

namespace EchoLog.Timestamp

open Pattern

/-- **A readable pattern has no record for a time exactly when it has a loose offset**, whatever the time
is. -/
theorem record?_eq_none_iff {pattern : String} (h : (parse? pattern).isSome = true) (t : LocalTime) :
    record? t pattern = none ↔ HasLooseOffset pattern := by
  obtain ⟨items, hitems⟩ := Option.isSome_iff_exists.1 h
  rw [record?, Option.map_eq_none_iff, format?, hitems, Option.bind_some, Option.map_eq_none_iff,
    render?_eq_none_iff, looseOffset_mem_iff hitems]

/-- A record starts with the tag and ends with a newline. -/
theorem exists_record?_iff {pattern : String} (h : (parse? pattern).isSome = true) (t : LocalTime) :
    (∃ text, record? t pattern = some (tag ++ text ++ "\n")) ↔ ¬ HasLooseOffset pattern := by
  rw [← record?_eq_none_iff h t, record?]
  cases Pattern.format? t pattern with
  | none => simp
  | some text => exact ⟨fun _ => nofun, fun _ => ⟨text, rfl⟩⟩

end EchoLog.Timestamp
