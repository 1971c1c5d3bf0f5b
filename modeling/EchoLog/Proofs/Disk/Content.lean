import EchoLog.Disk.Basic
import EchoLog.Proofs.Framing.Lines
/-!
# What a path holds

Seen from the store, a disk is one thing: the bytes that its path leads to, `Disk.content?`.  What is
proved here is how the operations of an open file move that view, and that they move nothing else a
path depends on: a path is followed through directories only, so a file in the place of a file is
found by the same names (`findFile_put`), and a file that is cleared away is missing
(`findFile_clear`).

The full device counts as a file that keeps no byte.  Nothing has to be said about it apart: an append
of any byte to it fails, and so does every cut.
-/

namespace EchoLog

/-- The bytes that a node keeps; a directory and the full device keep none. -/
def Node.stored : Node → Bytes
  | .file content => content
  | _ => []

namespace Disk

/-- The bytes that a path leads to; nothing if it leads nowhere, or to a directory. -/
def content? (d : Disk) (p : Path) : Option Bytes :=
  (d.findFile p).toOption.map fun found => found.2.stored

/-! ## Nodes -/

theorem lookup_filter (keep : Location → Bool) (l : Location) (nodes : List (Location × Node)) :
    (nodes.filter fun e => keep e.1).lookup l = if keep l then nodes.lookup l else none := by
  induction nodes with
  | nil => simp
  | cons e nodes ih =>
      obtain ⟨place, node⟩ := e
      by_cases hl : l = place
      · subst hl
        cases hkeep : keep l <;> simp [hkeep, ih]
      · have hne : (l == place) = false := beq_eq_false_iff_ne.2 hl
        cases hkeep : keep place <;> simp [List.lookup_cons, hne, hkeep, ih]

/-- Nodes are taken away by their locations. -/
theorem node?_filter (d : Disk) (keep : Location → Bool) {l : Location} (hroot : l ≠ []) :
    ({ d with nodes := d.nodes.filter fun e => keep e.1 } : Disk).node? l =
      if keep l then d.node? l else none := by
  have hempty : l.isEmpty = false := List.isEmpty_eq_false_iff.2 hroot
  rw [node?, node?, hempty, lookup_filter]
  rfl

theorem node?_put_self (d : Disk) {place : Location} (h : place ≠ []) (n : Node) :
    (d.put place n).node? place = some n := by
  have hroot : place.isEmpty = false := by simpa only [List.isEmpty_eq_false_iff] using h
  simp only [node?, put, hroot, Bool.false_eq_true, if_false, List.lookup_cons, beq_self_eq_true]

theorem node?_put_other (d : Disk) {place other : Location} (h : other ≠ place) (n : Node) :
    (d.put place n).node? other = d.node? other := by
  have hne : (other == place) = false := beq_eq_false_iff_ne.2 h
  simp only [node?, put, List.lookup_cons, hne]
  rw [lookup_filter (fun l => l ≠ place), if_pos (decide_eq_true h)]

/-- Putting a node where no directory stands leaves all directories. -/
theorem node?_put_of_directory {d : Disk} {place other : Location}
    (h : d.node? place ≠ some .directory) (hd : d.node? other = some .directory) (n : Node) :
    (d.put place n).node? other = some .directory := by
  rw [node?_put_other d (fun e => h (by rw [← e, hd])), hd]

theorem node?_clear_self (d : Disk) {place : Location} (h : place.isEmpty = false) :
    (d.clear place).node? place = none := by
  rw [clear, node?_filter d (fun l => l ≠ place) (List.isEmpty_eq_false_iff.1 h), if_neg (by simp)]

theorem node?_clear_other (d : Disk) {place other : Location} (h : other ≠ place) :
    (d.clear place).node? other = d.node? other := by
  rw [node?, node?, clear, lookup_filter (fun l => l ≠ place), if_pos (decide_eq_true h)]

/-! ## Following a path -/

theorem child_eq_ok {d : Disk} {folder : Location} {name : String} {found : Option Node} :
    d.child folder name = .ok found ↔
      ¬ Path.maxName < name.utf8ByteSize ∧ d.node? (folder ++ [name]) = found := by
  unfold child
  split
  · rename_i hlong
    constructor
    · intro hfound
      cases hfound
    · intro hfound
      exact absurd hlong hfound.1
  · rename_i hshort
    constructor
    · intro hfound
      exact ⟨hshort, Except.ok.inj hfound⟩
    · intro hfound
      rw [hfound.2]

section Follow

variable {d d' : Disk} {here next : Location}
  (h : ∀ other, d.node? other = some .directory → d'.node? other = some .directory)

include h in
theorem enter_of_directories {name : String} (he : d.enter here name = .ok next) :
    d'.enter here name = .ok next := by
  unfold enter at he ⊢
  by_cases hdot : name = "."
  · rwa [if_pos hdot] at he ⊢
  · by_cases hdots : name = ".."
    · rwa [if_neg hdot, if_pos hdots] at he ⊢
    · rw [if_neg hdot, if_neg hdots] at he ⊢
      split at he
      · cases he
      · cases he
      · rename_i hc
        obtain ⟨hname, hdir⟩ := child_eq_ok.1 hc
        rw [child_eq_ok.2 ⟨hname, h _ hdir⟩]
        exact he
      · cases he

include h in
theorem follow_of_directories {names : List String} : ∀ {here : Location},
    d.follow here names = .ok next → d'.follow here names = .ok next := by
  induction names with
  | nil =>
      intro here hf
      exact hf
  | cons name names ih =>
      intro here hf
      simp only [follow, List.foldlM_cons, bind, Except.bind] at hf ⊢
      cases he : d.enter here name with
      | error cause =>
          rw [he] at hf
          cases hf
      | ok mid =>
          rw [he] at hf
          rw [enter_of_directories h he]
          exact ih hf

include h in
/-- **A path is followed through directories only.** -/
theorem spot_of_directories {p : Path} {s : Spot} (hs : d.spot p = .ok s) : d'.spot p = .ok s := by
  unfold spot at hs ⊢
  split at hs
  · exact hs
  · exact hs
  · cases hf : d.follow p.origin p.names.dropLast with
    | error cause =>
        rw [hf] at hs
        cases hs
    | ok here =>
        rw [hf] at hs
        rw [follow_of_directories h hf]
        exact hs

end Follow

/-- A file is found under the last name of its path, in a directory that the other names lead to. -/
theorem findFile_eq_ok {d : Disk} {p : Path} {place : Location} {node : Node} :
    d.findFile p = .ok (place, node) ↔
      node ≠ .directory ∧ ∃ folder name, place = folder ++ [name] ∧
        d.spot p = .ok (.entry folder name false) ∧ d.child folder name = .ok (some node) := by
  constructor
  · intro hf
    have hnode : node ≠ .directory := by
      rintro rfl
      unfold findFile at hf
      split at hf
      · cases hf
      · rename_i hno
        exact hno _ hf
    have hfind : d.find p = .ok (place, node) := by
      unfold findFile at hf
      split at hf
      · cases hf
      · exact hf
    refine ⟨hnode, ?_⟩
    unfold find at hfind
    split at hfind
    · cases hfind
    · cases hfind
      exact absurd rfl hnode
    · rename_i folder name slash hs
      split at hfind
      · cases hfind
      · cases hfind
      · rename_i found hc
        split at hfind
        · cases hfind
        · rename_i hslash
          cases hfind
          have : slash = false := by simpa [hnode] using hslash
          exact ⟨folder, name, rfl, this ▸ hs, hc⟩
  · rintro ⟨hnode, folder, name, rfl, hs, hc⟩
    have hfind : d.find p = .ok (folder ++ [name], node) := by
      simp only [find, hs, hc, Bool.false_and, Bool.false_eq_true, if_false]
    unfold findFile
    rw [hfind]
    split
    · rename_i e
      cases e
      exact absurd rfl hnode
    · rfl

/-- Where a file is found, the disk has it. -/
theorem node?_of_findFile {d : Disk} {p : Path} {place : Location} {node : Node}
    (h : d.findFile p = .ok (place, node)) : d.node? place = some node := by
  obtain ⟨-, folder, name, rfl, -, hc⟩ := findFile_eq_ok.1 h
  exact (child_eq_ok.1 hc).2

/-- **A file in the place of a file, or of nothing, is found by the same names.** -/
theorem findFile_put_of_spot {d : Disk} {p : Path} {folder : Location} {name : String}
    {old : Option Node} {n : Node} (hs : d.spot p = .ok (.entry folder name false))
    (hc : d.child folder name = .ok old) (hold : old ≠ some .directory) (hn : n ≠ .directory) :
    (d.put (folder ++ [name]) n).findFile p = .ok (folder ++ [name], n) := by
  obtain ⟨hname, rfl⟩ := child_eq_ok.1 hc
  have hplace : folder ++ [name] ≠ [] := List.append_ne_nil_of_right_ne_nil _ (List.cons_ne_nil _ _)
  exact findFile_eq_ok.2 ⟨hn, folder, name, rfl, spot_of_directories (fun _ hd => node?_put_of_directory hold hd n) hs,
    child_eq_ok.2 ⟨hname, node?_put_self d hplace n⟩⟩

/-- A file that is cleared away is missing: no name leads to it any more, and the directories stay. -/
theorem findFile_clear {d : Disk} {p : Path} {place : Location} {node : Node}
    (h : d.findFile p = .ok (place, node)) : (d.clear place).findFile p = .error .missingEntry := by
  obtain ⟨hnode, folder, name, rfl, hs, hc⟩ := findFile_eq_ok.1 h
  obtain ⟨hname, hthere⟩ := child_eq_ok.1 hc
  have hplace : (folder ++ [name]).isEmpty = false := by
    rw [List.isEmpty_eq_false_iff]
    exact List.append_ne_nil_of_right_ne_nil _ (List.cons_ne_nil _ _)
  have hdirectories : ∀ other, d.node? other = some .directory →
      (d.clear (folder ++ [name])).node? other = some .directory := by
    intro other hd
    refine (node?_clear_other d ?_).trans hd
    rintro rfl
    exact hnode (Option.some.inj (hthere.symm.trans hd))
  have hgone : (d.clear (folder ++ [name])).child folder name = .ok none :=
    child_eq_ok.2 ⟨hname, node?_clear_self d hplace⟩
  have hfind : (d.clear (folder ++ [name])).find p = .error .missingEntry := by
    simp only [find, spot_of_directories hdirectories hs, hgone]
  rw [findFile, hfind]

theorem findFile_put {d : Disk} {p : Path} {place : Location} {node n : Node}
    (h : d.findFile p = .ok (place, node)) (hn : n ≠ .directory) :
    (d.put place n).findFile p = .ok (place, n) := by
  obtain ⟨hnode, folder, name, rfl, hs, hc⟩ := findFile_eq_ok.1 h
  refine findFile_put_of_spot hs hc ?_ hn
  intro e
  exact hnode (Option.some.inj e)

/-! ## The view of the store -/

theorem content?_of_findFile {d : Disk} {p : Path} {place : Location} {node : Node}
    (h : d.findFile p = .ok (place, node)) : d.content? p = some node.stored := by
  rw [content?, h]
  rfl

theorem exists_of_content? {d : Disk} {p : Path} {c : Bytes} (h : d.content? p = some c) :
    ∃ place node, d.findFile p = .ok (place, node) ∧ node.stored = c := by
  unfold content? at h
  cases hf : d.findFile p with
  | error cause =>
      rw [hf] at h
      cases h
  | ok found =>
      rw [hf] at h
      exact ⟨found.1, found.2, rfl, Option.some.inj h⟩

/-- **What creating a file does**: its last name is one in a directory and without a slash after it, no
directory has that name, and an empty file comes to stand there.  The full device is left as it is. -/
theorem of_create_eq_ok {d d' : Disk} {p : Path} (h : d.create p = .ok d') :
    ∃ folder name old, d.spot p = .ok (.entry folder name false) ∧ d.child folder name = .ok old ∧
      old ≠ some .directory ∧
      (old = some .full ∧ d' = d ∨ d' = d.put (folder ++ [name]) (.file [])) := by
  unfold create at h
  split at h
  · cases h
  · cases h
  · rename_i folder name slash hs
    split at h
    · cases h
    · rename_i hslash
      rw [Bool.not_eq_true] at hslash
      subst hslash
      split at h
      · cases h
      · rename_i hc
        cases h
        exact ⟨folder, name, none, hs, hc, by simp, .inr rfl⟩
      · rename_i old hc
        cases h
        exact ⟨folder, name, some (.file old), hs, hc, by simp, .inr rfl⟩
      · cases h
      · rename_i hc
        cases h
        exact ⟨folder, name, some .full, hs, hc, by simp, .inl ⟨rfl, rfl⟩⟩

/-- What a path leads to once it has been created. -/
theorem findFile_create {d d' : Disk} {p : Path} (h : d.create p = .ok d') :
    ∃ place, d'.findFile p = .ok (place, .file []) ∨
      d'.findFile p = .ok (place, .full) ∧ d' = d := by
  obtain ⟨folder, name, old, hs, hc, hold, ⟨rfl, rfl⟩ | rfl⟩ := of_create_eq_ok h
  · exact ⟨folder ++ [name], .inr ⟨findFile_eq_ok.2 ⟨by simp, folder, name, rfl, hs, hc⟩, rfl⟩⟩
  · exact ⟨folder ++ [name], .inl (findFile_put_of_spot hs hc hold (by simp))⟩

/-- A log that was just created is empty. -/
theorem content?_create {d d' : Disk} {p : Path} (h : d.create p = .ok d') :
    d'.content? p = some [] := by
  obtain ⟨place, hfile | ⟨hfull, -⟩⟩ := findFile_create h
  · exact (content?_of_findFile hfile :)
  · exact (content?_of_findFile hfull :)

/-- It can be read, unless it is the full device. -/
theorem read_create {d d' : Disk} {p : Path} (h : d.create p = .ok d') :
    d'.read p = .ok [] ∨ ∃ place, d.findFile p = .ok (place, .full) ∧ d' = d := by
  obtain ⟨place, hfile | ⟨hfull, rfl⟩⟩ := findFile_create h
  · refine .inl ?_
    rw [read, hfile]
  · exact .inr ⟨place, hfull, rfl⟩

/-- What is read is what the path holds. -/
theorem content?_of_read {d : Disk} {p : Path} {c : Bytes} (h : d.read p = .ok c) :
    d.content? p = some c := by
  unfold read at h
  split at h
  · cases h
  · rename_i place content hf
    cases h
    exact (content?_of_findFile hf :)
  · cases h

end Disk

/-- A handle stands for the file that a path leads to, which keeps `c`. -/
structure Handle.Opened (h : Handle) (d : Disk) (p : Path) (c : Bytes) : Prop where
  found : ∃ place node, h = .linked place ∧ d.findFile p = .ok (place, node) ∧ node.stored = c

namespace Handle.Opened

variable {h : Handle} {d : Disk} {p : Path} {c : Bytes}

theorem content? (ho : h.Opened d p c) : d.content? p = some c := by
  obtain ⟨place, node, -, hf, rfl⟩ := ho.found
  exact Disk.content?_of_findFile hf

/-- A change of an open file is a change of the node that the path leads to. -/
theorem change (ho : h.Opened d p c) (f : Node → Node × Option IoError) :
    ∃ node, node ≠ .directory ∧ node.stored = c ∧ (h.change d f).1 = h ∧
      (h.change d f).2.2 = (f node).2 ∧
      ((f node).1 ≠ .directory → h.Opened (h.change d f).2.1 p (f node).1.stored) := by
  obtain ⟨place, node, rfl, hfile, hc⟩ := ho.found
  have hnode := (Disk.findFile_eq_ok.1 hfile).1
  refine ⟨node, hnode, hc, ?_⟩
  simp only [Handle.change, Disk.node?_of_findFile hfile]
  exact ⟨trivial, trivial, fun hdir => ⟨place, _, rfl, Disk.findFile_put hfile hdir, rfl⟩⟩

end Handle.Opened

end EchoLog
