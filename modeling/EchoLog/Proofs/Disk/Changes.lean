import EchoLog.Disk.Change
import EchoLog.Proofs.Disk.Place
/-!
# What becomes of a file

A file is created, written, cut, taken away with its directory or replaced by one.  For each of these it
is said here what then stands at the place of the file, given what stood there before (`Disk.Alters`), and
that the place can still be told (`Disk.Fares`).  Only a change that writes or appends brings a file, and
only one that puts a directory brings a directory (`Disk.Sited.apply`).
-/

namespace EchoLog

namespace Disk

variable {d d' : Disk} {p : Path} {here : Location} {names : List String}

/-- What may become of what stands at a place; `brings` and `folds` say whether a file may be brought and
whether a directory may be put there. -/
inductive Alters (brings folds : Bool) (old : Option Node) : Option Node → Prop where
  | same : Alters brings folds old old
  | gone : Alters brings folds old none
  /-- The content is another. -/
  | changed {node node' : Node} : old = some node → (node' = .directory ↔ node = .directory) →
      Alters brings folds old (some node')
  | folded : folds = true → Alters brings folds old (some .directory)
  | brought {node : Node} : brings = true → node ≠ .directory → Alters brings folds old (some node)

theorem Alters.trans {brings folds : Bool} {old mid new : Option Node}
    (h : Alters brings folds old mid) (h' : Alters brings folds mid new) :
    Alters brings folds old new := by
  cases h' with
  | same => exact h
  | gone => exact .gone
  | folded hfolds => exact .folded hfolds
  | brought hbrings hfile => exact .brought hbrings hfile
  | @changed node node' hmid hsame =>
      cases h with
      | same => exact .changed hmid hsame
      | gone => cases hmid
      | changed hold hsame' =>
          cases hmid
          exact .changed hold (hsame.trans hsame')
      | folded hfolds =>
          cases hmid
          rw [hsame.2 rfl]
          exact .folded hfolds
      | brought hbrings hfile =>
          cases hmid
          exact .brought hbrings fun hdirectory => hfile (hsame.1 hdirectory)

/-- Where no file is brought, none comes. -/
theorem Alters.lacks {folds : Bool} {old new : Option Node} (h : Alters false folds old new)
    (hold : ∀ node, old = some node → node = .directory) :
    ∀ node, new = some node → node = .directory := by
  cases h with
  | same => exact hold
  | gone => simp
  | changed hnode hsame =>
      rintro node ⟨⟩
      exact hsame.2 (hold _ hnode)
  | folded _ =>
      rintro node ⟨⟩
      rfl
  | brought hbrings _ => cases hbrings

/-- Where no directory is put, none comes. -/
theorem Alters.ne_directory {brings : Bool} {old new : Option Node} (h : Alters brings false old new)
    (hold : old ≠ some .directory) : new ≠ some .directory := by
  cases h with
  | same => exact hold
  | gone => simp
  | changed hnode hsame =>
      intro hnew
      rw [hnode, hsame.1 (Option.some.inj hnew)] at hold
      exact hold rfl
  | folded hfolds => cases hfolds
  | brought _ hfile => exact fun hnew => hfile (Option.some.inj hnew)

/-- A disk after a change: the place can still be told, and what stands there has fared so. -/
structure Fares (p : Path) (brings folds : Bool) (d d' : Disk) : Prop where
  sited : d'.Sited p
  place : Alters brings folds (d.node? p.place) (d'.node? p.place)

variable {brings folds : Bool}

theorem Sited.fares (h : d.Sited p) : Fares p brings folds d d :=
  ⟨h, .same⟩

theorem Fares.trans {d'' : Disk} (h : Fares p brings folds d d') (h' : Fares p brings folds d' d'') :
    Fares p brings folds d d'' :=
  ⟨h'.sited, h.place.trans h'.place⟩

/-- A node is put at the place, a file only when the way is open. -/
theorem Sited.put (h : d.Sited p) {node : Node}
    (hways : node ≠ .directory → ∀ way ∈ p.ways, d.node? way = some .directory) :
    (d.put p.place node).Sited p := by
  have hother : ∀ way ∈ p.ways, (d.put p.place node).node? way = d.node? way := by
    intro way hway
    refine node?_put_other d ?_ node
    rintro rfl
    exact h.plain.apart hway
  refine ⟨h.plain, ?_, ?_⟩
  · intro way hway
    rw [hother way hway]
    exact h.free way hway
  · intro node' hnode' hfile way hway
    rw [node?_put_self d p.place_ne_nil, Option.some.injEq] at hnode'
    rw [hother way hway]
    exact hways (hnode' ▸ hfile) way hway

/-- Nodes are taken away, what stands at the place among them. -/
theorem Sited.shrink (h : d.Sited p) (hfewer : ∀ l, d'.node? l = none ∨ d'.node? l = d.node? l)
    (hgone : d'.node? p.place = none) : d'.Sited p := by
  refine ⟨h.plain, ?_, ?_⟩
  · intro way hway
    rcases hfewer way with hnone | hsame
    · exact .inl hnone
    · rw [hsame]
      exact h.free way hway
  · intro node hnode
    cases hgone.symm.trans hnode

theorem Sited.filter (h : d.Sited p) (keep : Location → Bool) (hgone : keep p.place = false) :
    Fares p brings folds d { d with nodes := d.nodes.filter fun e => keep e.1 } := by
  have hnone : ({ d with nodes := d.nodes.filter fun e => keep e.1 } : Disk).node? p.place = none := by
    rw [node?_filter d keep p.place_ne_nil, hgone]
    rfl
  refine ⟨h.shrink ?_ hnone, hnone ▸ .gone⟩
  intro l
  by_cases hroot : l = []
  · subst hroot
    exact .inr rfl
  · rw [node?_filter d keep hroot]
    split
    · exact .inr rfl
    · exact .inl rfl

theorem Sited.modify (h : d.Sited p) {f : Node → Node × Option IoError}
    (hf : ∀ node, (f node).1 = .directory ↔ node = .directory) :
    Fares p brings folds d (d.modify p f) := by
  rw [Disk.modify]
  rcases h.find with ⟨node, hfind, hnode, hways⟩ | ⟨hfind, -⟩
  · rw [hfind]
    refine ⟨h.put fun _ => hways, ?_⟩
    rw [node?_put_self d p.place_ne_nil]
    exact .changed hnode (hf node)
  · rw [hfind]
    exact h.fares

theorem Sited.renew (h : d.Sited p) : Fares p true folds d (d.renew p) := by
  have hmade : (∀ way ∈ p.ways, d.node? way = some .directory) →
      Fares p true folds d (d.put p.place (.file [])) := by
    intro hways
    refine ⟨h.put fun _ => hways, ?_⟩
    rw [node?_put_self d p.place_ne_nil]
    exact .brought rfl (by simp)
  rw [Disk.renew, Disk.create]
  rcases h.spot with ⟨hspot, hways⟩ | ⟨hspot, -⟩
  · simp only [hspot, Bool.false_eq_true, if_false]
    split
    · exact h.fares
    · exact hmade hways
    · exact hmade hways
    · exact h.fares
    · exact h.fares
  · rw [hspot]
    exact h.fares

/-- Directories are made on the way only, and nothing that was there is touched. -/
theorem node?_makeAll (d : Disk) (here : Location) (names : List String) (l : Location) :
    (d.makeAll here names).node? l = d.node? l ∨
      (l ∈ Path.waysFrom here names ∧ d.node? l = none ∧
        (d.makeAll here names).node? l = some .directory) := by
  induction names generalizing d here with
  | nil => exact .inl rfl
  | cons name names ih =>
      have hrest : ∀ (d' : Disk) (there : Location), d'.node? l = d.node? l →
          (l ∈ Path.waysFrom there names → l ∈ Path.waysFrom here (name :: names)) →
          (d'.makeAll there names).node? l = d.node? l ∨
            (l ∈ Path.waysFrom here (name :: names) ∧ d.node? l = none ∧
              (d'.makeAll there names).node? l = some .directory) := by
        intro d' there hsame hmem
        rcases ih d' there with hold | ⟨hl, hnone, hmade⟩
        · exact .inl (hold.trans hsame)
        · exact .inr ⟨hmem hl, hsame.symm.trans hnone, hmade⟩
      rw [makeAll]
      split
      · rename_i there he
        obtain ⟨rfl, -, -⟩ := of_enter_eq_ok he
        exact hrest d _ rfl fun hl => mem_waysFrom_cons.2 (.inr hl)
      · rename_i cause he
        have hplain : ¬ (name = "." ∨ name = "..") := by
          intro hdots
          rw [enter_of_dots d hdots] at he
          cases he
        split
        · rename_i hchild
          obtain ⟨-, hnone⟩ := child_eq_ok.1 hchild
          have hmem : l ∈ Path.waysFrom here (name :: names) ↔ (¬ (name = "." ∨ name = "..") ∧
              l = here ++ [name]) ∨ l ∈ Path.waysFrom (here ++ [name]) names := by
            rw [mem_waysFrom_cons, Path.next_plain hplain]
          by_cases hl : l = here ++ [name]
          · -- the directory that is made now; what is made after it leaves it as it is
            subst hl
            have hself := node?_put_self d (List.append_ne_nil_of_right_ne_nil here
              (List.cons_ne_nil name [])) .directory
            refine .inr ⟨hmem.2 (.inl ⟨hplain, rfl⟩), hnone, ?_⟩
            rcases ih (d.put (here ++ [name]) .directory) (here ++ [name]) with hold | ⟨-, -, hmade⟩
            · exact hold.trans hself
            · exact hmade
          · exact hrest _ _ (node?_put_other d hl .directory) fun hl => hmem.2 (.inr hl)
        · exact .inl rfl

/-- The way is made, as far as it was missing. -/
theorem Sited.makeAll (h : d.Sited p) : Fares p brings folds d (d.makeAll p.origin p.above) := by
  have hways : Path.waysFrom p.origin p.above = p.ways := by
    rw [h.plain.above_eq, Path.waysFrom_filter]
    rfl
  have hmade := fun l => d.node?_makeAll p.origin p.above l
  rw [hways] at hmade
  have hplace : (d.makeAll p.origin p.above).node? p.place = d.node? p.place :=
    (hmade p.place).resolve_right fun h' => h.plain.apart h'.1
  refine ⟨⟨h.plain, ?_, ?_⟩, hplace ▸ .same⟩
  · intro way hway
    rcases hmade way with hsame | ⟨-, -, hdirectory⟩
    · rw [hsame]
      exact h.free way hway
    · exact .inr hdirectory
  · intro node hnode hfile way hway
    rw [hplace] at hnode
    rcases hmade way with hsame | ⟨-, -, hdirectory⟩
    · rw [hsame]
      exact h.reached node hnode hfile way hway
    · exact hdirectory

/-- The directory of the file is taken away, and the file with it. -/
theorem Sited.deleteParent (h : d.Sited p) :
    Fares p brings folds d (Change.deleteParent.apply d p) := by
  rw [Change.apply]
  split
  · rename_i last place _ _ hfollow
    obtain ⟨hplace, -, -⟩ := of_follow_eq_ok hfollow
    rw [h.plain.above_eq, Path.walk_filter] at hplace
    have hbeneath : place.isPrefixOf p.place = true := by
      rw [List.isPrefixOf_iff_prefix, hplace]
      exact List.prefix_append ..
    have hother : p.place ≠ place := by
      rw [hplace, Path.place, Path.folder]
      simp
    split
    · exact h.filter (fun l => !(place.isPrefixOf l && l ≠ place)) (by simp [hbeneath, hother])
    · exact h.filter (fun l => !place.isPrefixOf l) (by simp [hbeneath])
  · exact h.fares

end Disk

namespace Node

theorem append_eq_directory_iff (limit : Option Nat) (bytes : Bytes) (node : Node) :
    (append limit bytes node).1 = .directory ↔ node = .directory := by
  cases node with
  | file content =>
      cases limit with
      | none => simp [append]
      | some most =>
          simp only [append]
          split <;> simp
  | directory => simp [append]
  | full => simp [append]

theorem resize_eq_directory_iff (limit : Option Nat) (length : Nat) (node : Node) :
    (resize limit length node).1 = .directory ↔ node = .directory := by
  cases node with
  | file content =>
      rw [resize]
      split
      · simp
      · split <;> simp
  | directory => simp [resize]
  | full => simp [resize]

end Node

namespace Change

/-- Whether a change brings a file that was not there. -/
def bringsFile : Change → Bool
  | write _ => true
  | append _ => true
  | _ => false

/-- Whether a change puts a directory in the place of the file. -/
def folds : Change → Bool
  | makeDirectory => true
  | _ => false

end Change

namespace Disk

variable {d : Disk} {p : Path}

/-- **Whatever another process does, the place can still be told**, and only who writes or appends
brings a file. -/
theorem Sited.apply (h : d.Sited p) (c : Change) : Fares p c.bringsFile c.folds d (c.apply d p) := by
  cases c with
  | delete =>
      rw [Change.apply, unlink]
      rcases h.findFile with ⟨node, hfound, -, -⟩ | ⟨-, hfound | hfound⟩
      · rw [hfound]
        exact h.filter (fun l => l ≠ p.place) (by simp)
      · rw [hfound]
        exact h.fares
      · rw [hfound]
        exact h.fares
  | write content =>
      have hrenew : Fares p true false d (d.renew p) := h.renew
      exact hrenew.trans (hrenew.sited.modify (Node.append_eq_directory_iff d.limit content))
  | append content =>
      have hmade : Fares p true false d (if (d.find p).toOption.isSome then d else d.renew p) := by
        split
        · exact h.fares
        · exact h.renew
      exact hmade.trans (hmade.sited.modify (Node.append_eq_directory_iff d.limit content))
  | truncate length => exact h.modify (Node.resize_eq_directory_iff d.limit length)
  | makeDirectory =>
      rw [Change.apply]
      rcases h.spot with ⟨hspot, -⟩ | ⟨hspot, -⟩
      · have hcleared : Fares p false true d (d.clearTree p.place) :=
          h.filter (fun l => !p.place.isPrefixOf l) (by simp)
        have hput : Fares p false true (d.clearTree p.place)
            ((d.clearTree p.place).put p.place .directory) := by
          refine ⟨hcleared.sited.put fun hfile => absurd rfl hfile, ?_⟩
          rw [node?_put_self _ p.place_ne_nil]
          exact .folded rfl
        simp only [hspot]
        split
        · exact hcleared.trans hput
        · exact h.fares
      · rw [hspot]
        exact h.fares
  | removeDirectory =>
      rw [Change.apply]
      split
      · rename_i place _ hfind
        rcases h.find with ⟨node, hfound, -, -⟩ | ⟨hfound, -⟩
        · cases hfind.symm.trans hfound
          split
          · exact h.filter (fun l => l ≠ p.place) (by simp)
          · exact h.fares
        · cases hfind.symm.trans hfound
      · exact h.fares
  | deleteParent => exact h.deleteParent
  | makeParent =>
      rw [Change.apply]
      split
      · exact h.fares
      · exact h.makeAll

/-- **The place of a file that was just created can be told**, and the file stands there. -/
theorem sited_create {d' : Disk} (h : d.create p = .ok d') :
    d'.Sited p ∧ d'.node? p.place ≠ some .directory := by
  obtain ⟨folder, name, old, hspot, hchild, hold, -⟩ := of_create_eq_ok h
  have hsited : d.Sited p := (sited_of_spot hspot hchild hold).1
  have hrenew : Fares p true false d (d.renew p) := hsited.renew
  rw [Disk.renew, h] at hrenew
  refine ⟨hrenew.sited, ?_⟩
  intro hdirectory
  have hlacks : d'.Lacks p := fun node hnode => Option.some.inj (hnode.symm.trans hdirectory)
  cases (content?_create h).symm.trans (hrenew.sited.content?_eq_none_iff.2 hlacks)

/-- Creating a file changes nothing elsewhere. -/
theorem node?_create_other {d' : Disk} {other : Location} (h : d.create p = .ok d')
    (hother : other ≠ p.place) : d'.node? other = d.node? other := by
  obtain ⟨folder, name, old, hspot, hchild, hold, ⟨-, rfl⟩ | rfl⟩ := of_create_eq_ok h
  · rfl
  · obtain ⟨-, hplace⟩ := sited_of_spot hspot hchild hold
    exact node?_put_other d (hplace ▸ hother) _

end Disk

end EchoLog
