import EchoLog.Proofs.Disk.Content
/-!
# The place of a path

A path is looked up anew every time it is used, and its answer depends on what stands in the directories
on the way.  Where it can lead is fixed all the same: dots and names alone say at which location its file
stands, if there is one (`Path.place`), and which directories have to be entered by name on the way there
(`Path.ways`).

`Disk.Sited` says that no file stands in the way, and that none stands at the place unless the way there
is open.  Creating the file makes it so (`sited_create`), and it stays so whatever another process does
to the file and its directory (`Sited.apply`).  Then a lookup that finds no file means that none is there
(`Sited.content?_eq_none_iff`), and directories that go and come back bring no file with them.
-/

namespace EchoLog

namespace Path

/-- Where one name leads from a location. -/
def next (here : Location) (name : String) : Location :=
  if name = "." then here else if name = ".." then here.dropLast else here ++ [name]

/-- Where names lead, one after another. -/
def walk (here : Location) (names : List String) : Location :=
  names.foldl next here

/-- The directories that names enter on the way, dots left out. -/
def waysFrom : Location → List String → List Location
  | _, [] => []
  | here, name :: rest =>
    (if name = "." ∨ name = ".." then [] else [here ++ [name]]) ++ waysFrom (next here name) rest

/-- The last name of a path; none is an empty text. -/
def lastName (p : Path) : String :=
  p.names.getLast?.getD ""

/-- The location of the directory that holds what a path names. -/
def folder (p : Path) : Location :=
  walk p.origin p.names.dropLast

/-- The location of what a path names. -/
def place (p : Path) : Location :=
  p.folder ++ [p.lastName]

/-- The directories that a path enters by name on the way to its place. -/
def ways (p : Path) : List Location :=
  waysFrom p.origin p.names.dropLast

/-- A path whose text can name a file. -/
structure Plain (p : Path) : Prop where
  accepted : p.refusal? = none
  named : p.names.getLast? = some p.lastName
  undotted : p.lastName ≠ "." ∧ p.lastName ≠ ".."
  slash : p.endsInSlash = false
  short : ∀ name ∈ p.names, ¬ maxName < name.utf8ByteSize
  /-- The file is not a directory on its own way. -/
  apart : p.place ∉ p.ways

theorem place_ne_nil (p : Path) : p.place ≠ [] :=
  List.append_ne_nil_of_right_ne_nil _ (List.cons_ne_nil _ _)

theorem next_plain {here : Location} {name : String} (h : ¬ (name = "." ∨ name = "..")) :
    next here name = here ++ [name] := by
  rw [not_or] at h
  rw [next, if_neg h.1, if_neg h.2]

/-- Single dots lead nowhere. -/
theorem walk_filter (here : Location) (names : List String) :
    walk here (names.filter (· ≠ ".")) = walk here names := by
  induction names generalizing here with
  | nil => rfl
  | cons name names ih =>
      by_cases hdot : name = "."
      · rw [List.filter_cons_of_neg (by simp [hdot]), ih, walk, walk, List.foldl_cons, hdot]
        rfl
      · rw [List.filter_cons_of_pos (by simp [hdot])]
        exact ih (next here name)

theorem waysFrom_filter (here : Location) (names : List String) :
    waysFrom here (names.filter (· ≠ ".")) = waysFrom here names := by
  induction names generalizing here with
  | nil => rfl
  | cons name names ih =>
      by_cases hdot : name = "."
      · rw [List.filter_cons_of_neg (by simp [hdot]), ih, waysFrom, hdot]
        rfl
      · rw [List.filter_cons_of_pos (by simp [hdot]), waysFrom, waysFrom, ih]

/-- The names that lead to the directory of a file are all but the last. -/
theorem Plain.above_eq {p : Path} (h : p.Plain) : p.above = p.names.dropLast.filter (· ≠ ".") := by
  obtain ⟨names, hnames⟩ := List.getLast?_eq_some_iff.1 h.named
  rw [above, hnames, List.filter_append, List.filter_cons_of_pos (by simp [h.undotted.1]),
    List.filter_nil, List.dropLast_concat, List.dropLast_concat]

end Path

namespace Disk

variable {d d' : Disk} {p : Path} {here there : Location} {names : List String}

/-! ## Following names -/

theorem enter_of_dots (d : Disk) {name : String} (h : name = "." ∨ name = "..") :
    d.enter here name = .ok (Path.next here name) := by
  rcases h with rfl | rfl <;> rfl

theorem enter_of_name {name : String} (h : ¬ (name = "." ∨ name = "..")) :
    d.enter here name = match d.child here name with
      | .error cause => .error cause
      | .ok none => .error .missingEntry
      | .ok (some .directory) => .ok (Path.next here name)
      | .ok (some _) => .error .notDirectory := by
  rw [Path.next_plain h]
  rw [not_or] at h
  exact (if_neg h.1).trans (if_neg h.2)

/-- A name that can be entered leads to where it says, and to a directory. -/
theorem of_enter_eq_ok {name : String} (h : d.enter here name = .ok there) :
    there = Path.next here name ∧ ¬ Path.maxName < name.utf8ByteSize ∧
      (¬ (name = "." ∨ name = "..") → d.node? (here ++ [name]) = some .directory) := by
  by_cases hdots : name = "." ∨ name = ".."
  · rw [enter_of_dots d hdots] at h
    refine ⟨(Except.ok.inj h).symm, ?_, fun hplain => absurd hdots hplain⟩
    rcases hdots with rfl | rfl <;> decide
  · rw [enter_of_name hdots] at h
    split at h
    · cases h
    · cases h
    · rename_i hchild
      obtain ⟨hshort, hnode⟩ := child_eq_ok.1 hchild
      exact ⟨(Except.ok.inj h).symm, hshort, fun _ => hnode⟩
    · cases h

/-- A name that no file stands in the way of can be entered, or the directory is missing. -/
theorem enter_cases {name : String} (hshort : ¬ Path.maxName < name.utf8ByteSize)
    (hfree : ¬ (name = "." ∨ name = "..") →
      d.node? (here ++ [name]) = none ∨ d.node? (here ++ [name]) = some .directory) :
    (d.enter here name = .ok (Path.next here name) ∧
        (¬ (name = "." ∨ name = "..") → d.node? (here ++ [name]) = some .directory)) ∨
      (d.enter here name = .error .missingEntry ∧ ¬ (name = "." ∨ name = "..") ∧
        d.node? (here ++ [name]) = none) := by
  by_cases hdots : name = "." ∨ name = ".."
  · exact .inl ⟨enter_of_dots d hdots, fun hplain => absurd hdots hplain⟩
  · rw [enter_of_name hdots]
    rcases hfree hdots with hnone | hdirectory
    · rw [child_eq_ok.2 ⟨hshort, hnone⟩]
      exact .inr ⟨rfl, hdots, hnone⟩
    · rw [child_eq_ok.2 ⟨hshort, hdirectory⟩]
      exact .inl ⟨rfl, fun _ => hdirectory⟩

theorem mem_waysFrom_cons {name : String} {way : Location} :
    way ∈ Path.waysFrom here (name :: names) ↔
      (¬ (name = "." ∨ name = "..") ∧ way = here ++ [name]) ∨
        way ∈ Path.waysFrom (Path.next here name) names := by
  by_cases hdots : name = "." ∨ name = ".."
  · rw [Path.waysFrom, if_pos hdots, List.nil_append, or_iff_right fun h => h.1 hdots]
  · rw [Path.waysFrom, if_neg hdots, List.mem_append, List.mem_singleton, and_iff_right hdots]

theorem follow_cons_of_enter {name : String} (h : d.enter here name = .ok there) :
    d.follow here (name :: names) = d.follow there names := by
  simp only [follow, List.foldlM_cons, bind, Except.bind, h]

theorem follow_cons_of_error {name : String} {cause : IoError} (h : d.enter here name = .error cause) :
    d.follow here (name :: names) = .error cause := by
  simp only [follow, List.foldlM_cons, bind, Except.bind, h]

/-- **Names that can be followed lead to where they say**, through directories. -/
theorem of_follow_eq_ok (h : d.follow here names = .ok there) :
    there = Path.walk here names ∧ (∀ way ∈ Path.waysFrom here names, d.node? way = some .directory) ∧
      ∀ name ∈ names, ¬ Path.maxName < name.utf8ByteSize := by
  induction names generalizing here with
  | nil =>
      cases h
      exact ⟨rfl, by simp [Path.waysFrom], by simp⟩
  | cons name names ih =>
      cases he : d.enter here name with
      | error cause =>
          rw [follow_cons_of_error he] at h
          cases h
      | ok mid =>
          rw [follow_cons_of_enter he] at h
          obtain ⟨hthere, hways, hshort⟩ := ih h
          obtain ⟨rfl, hname, hdirectory⟩ := of_enter_eq_ok he
          refine ⟨hthere, ?_, List.forall_mem_cons.2 ⟨hname, hshort⟩⟩
          intro way hway
          rcases mem_waysFrom_cons.1 hway with ⟨hplain, rfl⟩ | hway
          · exact hdirectory hplain
          · exact hways way hway

/-- Names that no file stands in the way of can be followed, or a directory is missing. -/
theorem follow_cases (hshort : ∀ name ∈ names, ¬ Path.maxName < name.utf8ByteSize)
    (hfree : ∀ way ∈ Path.waysFrom here names, d.node? way = none ∨ d.node? way = some .directory) :
    (d.follow here names = .ok (Path.walk here names) ∧
        ∀ way ∈ Path.waysFrom here names, d.node? way = some .directory) ∨
      (d.follow here names = .error .missingEntry ∧
        ∃ way ∈ Path.waysFrom here names, d.node? way = none) := by
  induction names generalizing here with
  | nil => exact .inl ⟨rfl, by simp [Path.waysFrom]⟩
  | cons name names ih =>
      obtain ⟨hname, hshort⟩ := List.forall_mem_cons.1 hshort
      rcases enter_cases hname fun hplain => hfree _ (mem_waysFrom_cons.2 (.inl ⟨hplain, rfl⟩)) with
        ⟨he, hdirectory⟩ | ⟨he, hplain, hnone⟩
      · rw [follow_cons_of_enter he]
        rcases ih hshort fun way hway => hfree way (mem_waysFrom_cons.2 (.inr hway)) with
          ⟨hfollow, hways⟩ | ⟨hfollow, way, hway, hnone⟩
        · refine .inl ⟨hfollow, ?_⟩
          intro way hway
          rcases mem_waysFrom_cons.1 hway with ⟨hplain, rfl⟩ | hway
          · exact hdirectory hplain
          · exact hways way hway
        · exact .inr ⟨hfollow, way, mem_waysFrom_cons.2 (.inr hway), hnone⟩
      · exact .inr ⟨follow_cons_of_error he, _, mem_waysFrom_cons.2 (.inl ⟨hplain, rfl⟩), hnone⟩

/-! ## A place that can be told -/

/-- No file stands in the way to the place of a path, and if one stands at the place the way is open. -/
structure Sited (d : Disk) (p : Path) : Prop where
  plain : p.Plain
  free : ∀ way ∈ p.ways, d.node? way = none ∨ d.node? way = some .directory
  reached : ∀ node, d.node? p.place = some node → node ≠ .directory →
    ∀ way ∈ p.ways, d.node? way = some .directory

/-- No file stands at the place of a path; a directory may. -/
def Lacks (d : Disk) (p : Path) : Prop :=
  ∀ node, d.node? p.place = some node → node = .directory

theorem Sited.last_short (h : d.Sited p) : ¬ Path.maxName < p.lastName.utf8ByteSize :=
  h.plain.short _ (List.mem_of_getLast? h.plain.named)

theorem Sited.follow (h : d.Sited p) :
    (d.follow p.origin p.names.dropLast = .ok p.folder ∧
        ∀ way ∈ p.ways, d.node? way = some .directory) ∨
      (d.follow p.origin p.names.dropLast = .error .missingEntry ∧ ∃ way ∈ p.ways, d.node? way = none) :=
  follow_cases (fun name hname => h.plain.short name ((List.dropLast_sublist _).subset hname)) h.free

/-- The way is open, or the path leads nowhere. -/
theorem Sited.spot (h : d.Sited p) :
    (d.spot p = .ok (.entry p.folder p.lastName false) ∧
        ∀ way ∈ p.ways, d.node? way = some .directory) ∨
      (d.spot p = .error .missingEntry ∧ ∃ way ∈ p.ways, d.node? way = none) := by
  have hspot : d.spot p = (d.follow p.origin p.names.dropLast).map fun here =>
      .entry here p.lastName false := by
    simp only [Disk.spot, h.plain.accepted, h.plain.named, h.plain.undotted.1, h.plain.undotted.2,
      h.plain.slash, if_false]
  rw [hspot]
  rcases h.follow with ⟨hfollow, hways⟩ | ⟨hfollow, hnone⟩
  · rw [hfollow]
    exact .inl ⟨rfl, hways⟩
  · rw [hfollow]
    exact .inr ⟨rfl, hnone⟩

/-- A lookup finds what stands at the place, the way being open, or says that nothing is there. -/
theorem Sited.find (h : d.Sited p) :
    (∃ node, d.find p = .ok (p.place, node) ∧ d.node? p.place = some node ∧
        ∀ way ∈ p.ways, d.node? way = some .directory) ∨
      (d.find p = .error .missingEntry ∧ d.Lacks p) := by
  rcases h.spot with ⟨hspot, hways⟩ | ⟨hspot, way, hway, hmissing⟩
  · cases hnode : d.node? p.place with
    | none =>
        refine .inr ⟨?_, ?_⟩
        · simp only [Disk.find, hspot, child_eq_ok.2 ⟨h.last_short, hnode⟩]
        · intro node hsome
          cases hnode.symm.trans hsome
    | some node =>
        refine .inl ⟨node, ?_, rfl, hways⟩
        simp only [Disk.find, hspot, child_eq_ok.2 ⟨h.last_short, hnode⟩, Bool.false_and,
          Bool.false_eq_true, if_false]
        rfl
  · refine .inr ⟨?_, ?_⟩
    · simp only [Disk.find, hspot]
    · intro node hnode
      by_contra hfile
      cases hmissing.symm.trans (h.reached node hnode hfile way hway)

/-- **A lookup finds the file at the place, or there is none.** -/
theorem Sited.findFile (h : d.Sited p) :
    (∃ node, d.findFile p = .ok (p.place, node) ∧ d.node? p.place = some node ∧ node ≠ .directory) ∨
      (d.Lacks p ∧ (d.findFile p = .error .missingEntry ∨ d.findFile p = .error .isDirectory)) := by
  rcases h.find with ⟨node, hfind, hnode, -⟩ | ⟨hfind, hlacks⟩
  · by_cases hdirectory : node = .directory
    · subst hdirectory
      refine .inr ⟨?_, .inr ?_⟩
      · intro other hother
        exact (Option.some.inj (hnode.symm.trans hother)).symm
      · simp only [Disk.findFile, hfind]
    · refine .inl ⟨node, ?_, hnode, hdirectory⟩
      unfold Disk.findFile
      split
      · rename_i hother
        cases hfind.symm.trans hother
        exact absurd rfl hdirectory
      · exact hfind
  · refine .inr ⟨hlacks, .inl ?_⟩
    simp only [Disk.findFile, hfind]

/-- **A path leads to no file exactly when none stands at its place.** -/
theorem Sited.content?_eq_none_iff (h : d.Sited p) : d.content? p = none ↔ d.Lacks p := by
  rw [content?, Option.map_eq_none_iff]
  rcases h.findFile with ⟨node, hfound, hnode, hfile⟩ | ⟨hlacks, hfound | hfound⟩
  · rw [hfound]
    exact iff_of_false (by simp [Except.toOption]) fun hlacks => hfile (hlacks node hnode)
  · rw [hfound]
    exact iff_of_true rfl hlacks
  · rw [hfound]
    exact iff_of_true rfl hlacks

/-! ## A file that was just created -/

/-- A name in a directory is the last name of the path, and the others lead to the directory. -/
theorem of_spot_eq_entry {folder : Location} {name : String} {slash : Bool}
    (h : d.spot p = .ok (.entry folder name slash)) :
    p.refusal? = none ∧ p.names.getLast? = some name ∧ (name ≠ "." ∧ name ≠ "..") ∧
      slash = p.endsInSlash ∧ d.follow p.origin p.names.dropLast = .ok folder := by
  unfold Disk.spot at h
  split at h
  · cases h
  · cases h
  · rename_i last hrefusal hlast
    cases hfollow : d.follow p.origin p.names.dropLast with
    | error cause =>
        rw [hfollow] at h
        cases h
    | ok here =>
        simp only [hfollow, Except.map, Except.ok.injEq] at h
        split at h
        · cases h
        · rename_i hdot
          split at h
          · cases h
          · rename_i hdots
            cases h
            exact ⟨hrefusal, hlast, ⟨hdot, hdots⟩, rfl, rfl⟩

/-- **The place of a file that was just created can be told.** -/
theorem sited_of_spot {folder : Location} {name : String} {old : Option Node}
    (hspot : d.spot p = .ok (.entry folder name false)) (hchild : d.child folder name = .ok old)
    (hold : old ≠ some .directory) : d.Sited p ∧ folder ++ [name] = p.place := by
  obtain ⟨hrefusal, hlast, hundotted, hslash, hfollow⟩ := of_spot_eq_entry hspot
  obtain ⟨rfl, hways, hshort⟩ := of_follow_eq_ok hfollow
  obtain ⟨hname, hnode⟩ := child_eq_ok.1 hchild
  have hlastName : p.lastName = name := by rw [Path.lastName, hlast]; rfl
  have hplace : Path.walk p.origin p.names.dropLast ++ [name] = p.place := by
    rw [Path.place, hlastName]
    rfl
  rw [hplace] at hnode
  refine ⟨⟨⟨hrefusal, ?_, ?_, hslash.symm, ?_, ?_⟩, ?_, ?_⟩, hplace⟩
  · rw [hlastName, hlast]
  · rw [hlastName]
    exact hundotted
  · obtain ⟨names, hnames⟩ := List.getLast?_eq_some_iff.1 hlast
    rw [hnames, List.dropLast_concat] at hshort
    rw [hnames]
    intro other hother
    rcases List.mem_append.1 hother with hother | hother
    · exact hshort other hother
    · rw [List.mem_singleton.1 hother]
      exact hname
  · intro hmem
    exact hold (hnode.symm.trans (hways _ hmem))
  · exact fun way hway => .inr (hways way hway)
  · exact fun _ _ _ => hways

end Disk

end EchoLog
