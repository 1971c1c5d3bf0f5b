import EchoLog.Command.Run
import EchoLog.Proofs.Service.Confinement
/-!
# Where a detached service has its log

A detached service has moved to the root before its log file is created, and a data file that is named
from a directory is then named from there.  So its log stands where that of a service in the foreground
would stand only if the data file's text starts at the root, or if it leads out of the directory where the
program was started and all those above it (`Path.place_eq_iff`).
-/

namespace EchoLog

namespace Path

/-- How far names lead above the directory where they start, when they have led `depth` directories down
from it. -/
def climb : (depth : Nat) → List String → Nat
  | _, [] => 0
  | depth, name :: rest =>
    if name = "." then climb depth rest
    else if name = ".." then
      if depth = 0 then climb 0 rest + 1 else climb (depth - 1) rest
    else climb (depth + 1) rest

/-- Whether a text starts at the root wherever it is used. -/
def IsAbsolute (text : String) : Prop :=
  text.toList.head? = some '/'

instance (text : String) : Decidable (IsAbsolute text) :=
  inferInstanceAs (Decidable (_ = _))

/-- **Names lead to the same from a directory as from the root**, beneath what is left of the directory
when they have climbed. -/
theorem walk_append (base own : Location) (names : List String) :
    walk (base ++ own) names =
      base.take (base.length - climb own.length names) ++ walk own names := by
  induction names generalizing base own with
  | nil => rw [climb, Nat.sub_zero, List.take_length]; rfl
  | cons name names ih =>
      rw [walk, walk, List.foldl_cons, List.foldl_cons, climb]
      by_cases hdot : name = "."
      · rw [if_pos hdot, next, next, if_pos hdot, if_pos hdot]
        exact ih base own
      · rw [if_neg hdot]
        by_cases hdots : name = ".."
        · rw [if_pos hdots, next, next, if_neg hdot, if_pos hdots, if_neg hdot, if_pos hdots]
          rcases List.eq_nil_or_concat own with rfl | ⟨own, last, rfl⟩
          · -- the directory that is left now is one of `base`
            have hup := ih base.dropLast []
            rw [List.append_nil] at hup
            rw [List.append_nil]
            refine hup.trans ?_
            rw [List.length_nil, if_pos rfl, List.length_dropLast, List.dropLast_eq_take, List.take_take]
            congr 2
            omega
          · rw [List.concat_eq_append, ← List.append_assoc, List.dropLast_concat,
              List.dropLast_concat, List.length_append, List.length_singleton,
              if_neg (Nat.succ_ne_zero _), Nat.add_sub_cancel]
            exact ih base own
        · rw [if_neg hdots, next_plain (not_or.2 ⟨hdot, hdots⟩),
            next_plain (not_or.2 ⟨hdot, hdots⟩), List.append_assoc]
          have hdown := ih base (own ++ [name])
          rw [List.length_append, List.length_singleton] at hdown
          exact hdown

theorem walk_eq_iff {base : Location} {names : List String} :
    walk base names = walk [] names ↔ base.length ≤ climb 0 names := by
  have hwalk := walk_append base [] names
  rw [List.append_nil, List.length_nil] at hwalk
  rw [hwalk, List.append_left_eq_self, List.take_eq_nil_iff, Nat.sub_eq_zero_iff_le]
  refine or_iff_left_of_imp ?_
  rintro rfl
  exact Nat.zero_le _

/-- **A text names the same place from a directory as from the root** exactly if it starts at the root, or
climbs out of the directory. -/
theorem place_eq_iff {directory : Location} {text : String} :
    place ⟨[], text⟩ = place ⟨directory, text⟩ ↔
      IsAbsolute text ∨ directory.length ≤ climb 0 (names ⟨directory, text⟩).dropLast := by
  have hplaces : place ⟨[], text⟩ = place ⟨directory, text⟩ ↔
      walk (origin ⟨directory, text⟩) (names ⟨directory, text⟩).dropLast =
        walk [] (names ⟨directory, text⟩).dropLast := by
    have horigin : origin ⟨[], text⟩ = [] := ite_self []
    rw [place, place, folder, folder, horigin]
    exact (List.append_left_inj _).trans eq_comm
  rw [hplaces]
  by_cases habsolute : IsAbsolute text
  · have horigin : origin ⟨directory, text⟩ = [] := if_pos habsolute
    rw [horigin]
    exact iff_of_true rfl (.inl habsolute)
  · have horigin : origin ⟨directory, text⟩ = directory := if_neg habsolute
    rw [horigin, walk_eq_iff, or_iff_right habsolute]

end Path

namespace Command

variable {a : Arguments} {settings : Settings} {refusal : Endpoint → Option IoError}
  {directory : Location} {disk : Disk} {s₀ : Service}

/-- The service that came of a use of the command, in the foreground or detached. -/
def Outcome.service? : Outcome → Option Service
  | .serving _ s => some s
  | .detached _ (.started s) => some s
  | _ => none

theorem started_of_serve (h : (serve a settings refusal directory disk).service? = some s₀) :
    Service.ofListener settings (startDirectory a directory) disk = .started s₀ := by
  unfold serve at h
  split at h
  · cases h
  · split at h
    · cases hstart : Service.ofListener settings (startDirectory a directory) disk with
      | failed f left =>
          rw [hstart] at h
          cases h
      | broken left =>
          rw [hstart] at h
          cases h
      | started s =>
          rw [hstart] at h
          cases h
          rfl
    · dsimp only at h
      split at h
      · cases h
      · cases h
      · rename_i hstart
        cases h
        exact hstart

/-- **Where the log of a service stands.**  Whether the service is detached or not, its log stands at the
place of its data file, named from the directory where it starts.  That is the directory where the program
was started for a service in the foreground and the root for a detached one, so both have their logs at the
same place exactly if the data file's text starts at the root or climbs out of the directory where the
program was started; from the root itself, it does so whatever the text is. -/
theorem detached_log_in_place_iff (a : Arguments) (settings : Settings) (directory : Location) :
    let place (detached : Bool) : Location :=
      Path.place ⟨startDirectory { a with daemon := detached } directory, settings.storage.dataFile⟩
    (∀ detached refusal disk s₀,
      (serve { a with daemon := detached } settings refusal directory disk).service? = some s₀ →
        s₀.LogsAt disk (place detached)) ∧
      place false = Path.place ⟨directory, settings.storage.dataFile⟩ ∧
      (place true = place false ↔ Path.IsAbsolute settings.storage.dataFile ∨
        directory.length ≤ Path.climb 0 (Path.names ⟨directory, settings.storage.dataFile⟩).dropLast) := by
  intro place
  refine ⟨?_, rfl, Path.place_eq_iff⟩
  intro detached refusal disk s₀ h
  exact Service.logsAt_of_started (started_of_serve h)

/-- A home directory, and another beside it. -/
def homeDisk : Disk where
  nodes := [(["home"], .directory), (["etc"], .directory)]

/-- The theorem for a data file that starts at the root: a detached service has created its log where the
program would have had it in the foreground, and while it appends nothing else is changed. -/
theorem detached_log_in_place_from_root :
    let settings : Settings := { storage := { dataFile := "/home/../etc/log" } }
    ∃ s₀ s, (serve { daemon := true } settings (fun _ => none) ["home"] homeDisk).service? = some s₀ ∧
      Path.place ⟨["home"], settings.storage.dataFile⟩ = ["etc", "log"] ∧
      s₀.log.disk.node? ["etc", "log"] = some (.file []) ∧
      s₀.run? [.begin 0 0, .call (.append (utf8 "a\n")), .log (.ask 1), .log .grant,
        .log (.file none), .log (.file none)] = some s ∧
      s.log.disk.node? ["etc", "log"] = some (.file (utf8 "a\n")) ∧
      ∀ other, other ≠ ["etc", "log"] → s.log.disk.node? other = homeDisk.node? other := by
  intro settings
  have hseen : (serve { daemon := true } settings (fun _ => none) ["home"] homeDisk).service?.map
      (fun s₀ => (s₀.log.disk.node? ["etc", "log"],
        (s₀.run? [.begin 0 0, .call (.append (utf8 "a\n")), .log (.ask 1), .log .grant,
          .log (.file none), .log (.file none)]).map fun s => s.log.disk.node? ["etc", "log"])) =
      some (some (.file []), some (some (.file (utf8 "a\n")))) := by decide +kernel
  obtain ⟨s₀, hserve, hseen⟩ := Option.map_eq_some_iff.1 hseen
  obtain ⟨hempty, hseen⟩ := Prod.mk.inj hseen
  obtain ⟨s, hrun, happended⟩ := Option.map_eq_some_iff.1 hseen
  obtain ⟨hlogs, hhere, hsame⟩ := detached_log_in_place_iff { daemon := true } settings ["home"]
  have hplace : Path.place ⟨["home"], settings.storage.dataFile⟩ = ["etc", "log"] := by decide +kernel
  have hlog := hlogs true _ _ _ hserve
  rw [hsame.2 (.inl (by decide +kernel)), hhere, hplace] at hlog
  exact ⟨s₀, s, hserve, hplace, hempty, hrun, happended, hlog.elsewhere _ s hrun (by simp)⟩

/-- **A data file that is named from a directory is another file for a detached service**, or none: at a
home directory, the log of a service in the foreground stands there and that of a detached one at the root;
and where a directory of that name stands at the root already, a detached service fails after its caller
has been told that all is well. -/
theorem detached_log_elsewhere :
    let use (detached : Bool) (file : String) : Outcome :=
      serve { daemon := detached } { storage := { dataFile := file } } (fun _ => none) ["home"] homeDisk
    (∃ s, (use false "log").service? = some s ∧
      s.log.disk.node? ["home", "log"] = some (.file []) ∧ s.log.disk.node? ["log"] = none) ∧
    (∃ s, (use true "log").service? = some s ∧
      s.log.disk.node? ["home", "log"] = none ∧ s.log.disk.node? ["log"] = some (.file [])) ∧
    (∃ s, (use false "etc").service? = some s ∧
      s.log.disk.node? ["home", "etc"] = some (.file [])) ∧
    (use true "etc").service? = none ∧ (use true "etc").status = 0 := by
  intro use
  have hfront : (use false "log").service?.map (fun s =>
      (s.log.disk.node? ["home", "log"], s.log.disk.node? ["log"])) = some (some (.file []), none) := by
    decide +kernel
  have hback : (use true "log").service?.map (fun s =>
      (s.log.disk.node? ["home", "log"], s.log.disk.node? ["log"])) = some (none, some (.file [])) := by
    decide +kernel
  have hfront' : (use false "etc").service?.map (fun s => s.log.disk.node? ["home", "etc"]) =
      some (some (.file [])) := by decide +kernel
  have hnone : (use true "etc").service?.isNone = true := by decide +kernel
  obtain ⟨s, hs, hplaces⟩ := Option.map_eq_some_iff.1 hfront
  obtain ⟨s', hs', hplaces'⟩ := Option.map_eq_some_iff.1 hback
  exact ⟨⟨s, hs, Prod.mk.inj hplaces⟩, ⟨s', hs', Prod.mk.inj hplaces'⟩,
    Option.map_eq_some_iff.1 hfront', Option.isNone_iff_eq_none.1 hnone, by decide +kernel⟩

end Command

end EchoLog
