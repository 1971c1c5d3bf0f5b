import EchoLog.Proofs.Pattern.Writable
import EchoLog.Proofs.Service.Log
/-!
# The timestamp writers of a service

A service has a timestamp writer if its settings enable one, and that writer works by the pattern of the
settings.  It breaks off without a result only at a tick for which the pattern has no text: a zero period,
the other way to break off, is refused by the check of the settings.

The check reads the pattern and refuses what cannot be read.  The loose offset it lets pass, so with
accepted settings a writer can break off exactly when it is enabled and its pattern has that field
(`accepted_pattern_renders_iff`).
-/

namespace EchoLog

/-! ## Accepted settings -/

theorem demand_then_ok {condition : Bool} {fault : ConfigFault} {next : Except ConfigFault Unit} :
    (do demand condition fault; next) = .ok () ↔ condition = true ∧ next = .ok () := by
  cases condition with
  | true => exact (and_iff_right rfl).symm
  | false =>
      constructor
      · nofun
      · rintro ⟨h, -⟩
        cases h

/-- Accepted settings have a pattern that can be read, and an interval within its bounds if timestamps are
written. -/
theorem Settings.timestamp_of_check {settings : Settings} (h : settings.check = .ok ()) :
    (Pattern.parse? settings.timestamp.format).isSome = true ∧
      (settings.timestamp.enabled = true → 0 < settings.timestamp.intervalSeconds ∧
        settings.timestamp.intervalSeconds ≤ Limits.timestampInterval) := by
  simp only [check, demand_then_ok] at h
  obtain ⟨-, -, -, -, -, hinterval, hformat, -⟩ := h
  refine ⟨hformat, ?_⟩
  intro henabled
  simpa [henabled] using hinterval

/-! ## The steps of a writer -/

namespace Timestamp

/-- What a writer can come to in steps of its own or with an answer of the store: it keeps its pattern, and
breaks off only where that has no text. -/
structure Writer.Becomes (v w : Writer) : Prop where
  format : w.format = v.format
  broken : w.stage = .broken → v.stage = .broken ∨ ∃ t, record? t v.format = none

theorem Writer.becomes_self (w : Writer) : w.Becomes w :=
  ⟨rfl, .inl⟩

theorem Writer.becomes_tick (w : Writer) (now : Nat) (t : LocalTime) : w.Becomes (w.tick now t) where
  format := rfl
  broken := by
    intro h
    simp only [tick] at h
    cases hrecord : record? t w.format with
    | none => exact .inr ⟨t, hrecord⟩
    | some record =>
        rw [hrecord] at h
        cases h

theorem Writer.becomes_leave (w : Writer) : w.Becomes w.leave :=
  ⟨rfl, nofun⟩

theorem Writer.becomes_stored (w : Writer) (answer : Except Failure Bytes) :
    w.Becomes (w.stored answer) := by
  cases answer <;> exact ⟨rfl, nofun⟩

/-- A writer with a period is not broken when it starts. -/
theorem Writer.stage_start_ne_broken {period : Nat} (h : 0 < period) (uptime now : Nat) (format : String) :
    (Writer.start uptime now period format).stage ≠ .broken := by
  rw [start]
  dsimp only
  split
  · nofun
  · rw [if_neg (Nat.ne_of_gt h)]
    nofun

/-- A writer that the settings enable and that works by their pattern; if it broke off, the pattern has no
text for some time. -/
structure Writer.Suits (w : Writer) (settings : Settings) : Prop where
  enabled : settings.timestamp.enabled = true
  format : w.format = settings.timestamp.format
  broken : w.stage = .broken → ∃ t, record? t settings.timestamp.format = none

theorem Writer.Suits.becomes {v w : Writer} {settings : Settings} (h : v.Suits settings)
    (hbecomes : v.Becomes w) : w.Suits settings := by
  refine ⟨h.enabled, hbecomes.format.trans h.format, ?_⟩
  intro hstage
  rcases hbecomes.broken hstage with hbefore | hnone
  · exact h.broken hbefore
  · rwa [h.format] at hnone

theorem Writer.suits_start {settings : Settings} (hcheck : settings.check = .ok ())
    (hon : settings.timestamp.enabled = true) (uptime now : Nat) :
    (Writer.start uptime now (1000 * settings.timestamp.intervalSeconds)
      settings.timestamp.format).Suits settings := by
  have hinterval := ((Settings.timestamp_of_check hcheck).2 hon).1
  refine ⟨hon, rfl, ?_⟩
  intro hstage
  exact absurd hstage (Writer.stage_start_ne_broken (by omega) uptime now _)

end Timestamp

open Timestamp

/-- What moves by itself into a writer was a writer. -/
theorem Task.Own.writer {i : Nat} {cancelled : Bool} {e : Event} {t t' : Task}
    (h : Task.Own i cancelled e t t') {w : Writer} (hw : t' = .writer w) :
    ∃ v, t = .writer v ∧ v.Becomes w := by
  cases h with
  | poll _ _ _ | receive _ _ _ | frame _ | send _ _ | flush _ _ => cases hw
  | leave _ _ =>
      cases t with
      | writer v =>
          cases hw
          exact ⟨v, rfl, v.becomes_leave⟩
      | session _ | caller _ => cases hw
  | @tick v now time _ _ =>
      cases hw
      exact ⟨v, rfl, v.becomes_tick now time⟩

theorem Task.writer_of_answered {t : Task} {answer : Answer} {w : Writer}
    (hw : t.answered answer = .writer w) : ∃ v, t = .writer v ∧ v.Becomes w := by
  cases t with
  | writer v =>
      cases hw
      exact ⟨v, rfl, v.becomes_stored _⟩
  | session _ | caller _ => cases hw

/-- **A writer after a move is what a writer in its place has become.** -/
theorem SharedLog.Move.writer {g g' : SharedLog} {e : Event} (h : Move g e g') {i : Nat} {w : Writer}
    (hw : g'.task? i = some (.writer w)) :
    ∃ v, g.task? i = some (.writer v) ∧ v.Becomes w := by
  cases h with
  | own _ ht hown =>
      rcases task?_setTask_cases ht hw with ⟨rfl, hsame⟩ | ⟨-, hw⟩
      · obtain ⟨v, rfl, hbecomes⟩ := hown.writer hsame.symm
        exact ⟨v, ht, hbecomes⟩
      · exact ⟨w, hw, w.becomes_self⟩
  | release _ ht =>
      rcases task?_setTask_cases ht hw with ⟨rfl, hsame⟩ | ⟨-, hw⟩
      · obtain ⟨v, rfl, hbecomes⟩ := Task.writer_of_answered hsame.symm
        exact ⟨v, ht, hbecomes⟩
      · exact ⟨w, hw, w.becomes_self⟩
  | fire _ =>
      rw [task?_fire] at hw
      exact ⟨w, hw, w.becomes_self⟩
  | ask _ _ | grant _ _ | file _ _ | outside _ => exact ⟨w, hw, w.becomes_self⟩

/-- A tick that is due is handled by a writer that waits for it. -/
theorem SharedLog.step?_tick {g : SharedLog} {i now : Nat} {w : Writer} (hw : g.task? i = some (.writer w))
    (hstage : w.stage = .waiting) (hdue : w.ticker.due ≤ now) (t : LocalTime) :
    g.step? (.tick i now t) = some (g.setTask i (.writer (w.tick now t))) := by
  simp only [step?, writer?_eq_some.2 hw, Option.bind_eq_bind, Option.bind_some, hstage, if_pos hdue]
  rfl

namespace Service

variable {s s' : Service} {e : ServiceEvent}

/-- The timestamp writer that a run begins with. -/
def writerFor (s : Service) (uptime now : Nat) : Writer :=
  .start uptime now (1000 * s.settings.timestamp.intervalSeconds) s.settings.timestamp.format

theorem log_begin_of_disabled (h : s.settings.timestamp.enabled = false) (uptime now : Nat) :
    (s.begin uptime now).log = s.log := by
  simp only [begin, h, Bool.false_eq_true, if_false]

theorem log_begin_of_enabled (h : s.settings.timestamp.enabled = true) (uptime now : Nat) :
    (s.begin uptime now).log = s.log.join (.writer (s.writerFor uptime now)) s.force.roster.cancelled := by
  simp only [begin, h, if_true]
  rfl

/-- A writer in the log is what one there has become, or it joins as the run begins. -/
theorem Handling.writer {g : SharedLog} (h : Handling s e g) {i : Nat} {w : Writer}
    (hw : g.task? i = some (.writer w)) :
    (∃ v, s.log.task? i = some (.writer v) ∧ v.Becomes w) ∨
      ∃ uptime now, e = .begin uptime now ∧ w = s.writerFor uptime now := by
  cases h with
  | moves _ hm => exact .inl (hm.writer hw)
  | reports _ _ _ => exact .inl ⟨w, hw, w.becomes_self⟩
  | seats _ hjoins =>
      rcases SharedLog.task?_join_cases hw with ⟨-, rfl⟩ | hw
      · cases hjoins with
        | writer uptime now => exact .inr ⟨uptime, now, rfl, rfl⟩
      · exact .inl ⟨w, hw, w.becomes_self⟩
  | fires _ _ => exact .inl ⟨w, (SharedLog.task?_fired _ i).symm.trans hw, w.becomes_self⟩

/-- **Where a writer after a move comes from**: one joins as the run begins, if the settings enable it. -/
theorem Move.writer (h : Move s e s') {i : Nat} {w : Writer} (hw : s'.log.task? i = some (.writer w)) :
    (∃ v, s.log.task? i = some (.writer v) ∧ v.Becomes w) ∨
      s.settings.timestamp.enabled = true ∧ ∃ uptime now, w = s.writerFor uptime now := by
  rcases h.handling.writer hw with hold | ⟨uptime, now, rfl, rfl⟩
  · exact .inl hold
  · cases henabled : s.settings.timestamp.enabled with
    | true => exact .inr ⟨rfl, uptime, now, rfl⟩
    | false =>
        cases h with
        | begin _ _ _ =>
            rw [log_begin_of_disabled henabled] at hw
            exact .inl ⟨_, hw, Writer.becomes_self _⟩
        | acceptor _ _ he _ _ => cases he

variable {settings : Settings}

/-- What a service by accepted settings is at any time: its writers suit the settings. -/
structure Timed (settings : Settings) (s : Service) : Prop where
  settings_eq : s.settings = settings
  writer : ∀ i w, s.log.task? i = some (.writer w) → w.Suits settings

/-- Nobody has joined when a service starts. -/
theorem timed_of_started {directory : Location} {disk : Disk}
    (h : ofListener settings directory disk = .started s) : s.Timed settings := by
  obtain ⟨store, fresh, roster, -, -, rfl⟩ := eq_of_started h
  refine ⟨rfl, ?_⟩
  intro i w hw
  simp only [SharedLog.task?, List.getElem?_nil, Option.map_none, reduceCtorEq] at hw

/-- **Every move keeps it so.** -/
theorem Timed.move (hcheck : settings.check = .ok ()) (h : s.Timed settings) (hmove : Move s e s') :
    s'.Timed settings := by
  refine ⟨hmove.settings.trans h.settings_eq, ?_⟩
  intro i w hw
  rcases hmove.writer hw with ⟨v, hv, hbecomes⟩ | ⟨hon, uptime, now, rfl⟩
  · exact (h.writer i v hv).becomes hbecomes
  · rw [h.settings_eq] at hon
    rw [writerFor, h.settings_eq]
    exact Writer.suits_start hcheck hon uptime now

/-- A period that the settings allow is within the clock. -/
theorem writerFor_of_check (hcheck : s.settings.check = .ok ())
    (hon : s.settings.timestamp.enabled = true) :
    let period := 1000 * s.settings.timestamp.intervalSeconds
    s.writerFor 0 0 = { format := s.settings.timestamp.format, ticker := ⟨period, period⟩ } := by
  obtain ⟨hpos, hmost⟩ := (Settings.timestamp_of_check hcheck).2 hon
  have hclock : Limits.timestampInterval < clockEnd := by decide
  rw [writerFor, Writer.start, if_neg (by omega), if_neg (by omega), Nat.zero_add]

/-- **A writer whose pattern has no text breaks off at its first tick.** -/
theorem exists_broken_writer (hidle : s.coordinator = .idle) (hcheck : s.settings.check = .ok ())
    (hon : s.settings.timestamp.enabled = true) {t : LocalTime}
    (htext : record? t s.settings.timestamp.format = none) :
    ∃ es s' i w, s.run? es = some s' ∧ s'.log.writer? i = some w ∧ w.stage = .broken := by
  let i := s.log.seats.length
  let period := 1000 * s.settings.timestamp.intervalSeconds
  let w := (s.writerFor 0 0).tick period t
  let g := (s.begin 0 0).log.setTask i (.writer w)
  have hwriter := writerFor_of_check hcheck hon
  have hseated : (s.begin 0 0).log.task? i = some (.writer (s.writerFor 0 0)) := by
    rw [log_begin_of_enabled hon]
    exact SharedLog.task?_join_new ..
  have hbegin : s.step? (.begin 0 0) = some (s.begin 0 0) := by simp only [step?, hidle]
  have htick : (s.begin 0 0).log.step? (.tick i period t) = some g :=
    SharedLog.step?_tick hseated (by rw [hwriter]) (by rw [hwriter]) t
  refine ⟨[.begin 0 0, .log (.tick i period t)], { s.begin 0 0 with log := g }, i, w, ?_, ?_, ?_⟩
  · rw [run?, hbegin, Option.bind_some, run?, step?, htick]
    · rfl
    · intro _ hfire
      cases hfire
  · exact SharedLog.writer?_eq_some.2 (SharedLog.task?_setTask_self hseated)
  · simp only [w, Writer.tick, hwriter, htext]

end Service

/-- **Accepted settings and the patterns that can be written.**  With settings that pass the check, the
pattern for timestamps has a record for every time exactly when the field `%#z` is not in it; otherwise it
has none for any time.  And in some run of a service started with them a timestamp writer breaks off
without a result if and only if timestamps are enabled and their pattern has that field. -/
theorem accepted_pattern_renders_iff {settings : Settings} (hcheck : settings.check = .ok ()) :
    (∀ t : LocalTime,
      (∃ text, record? t settings.timestamp.format = some ("timestamp:" ++ text ++ "\n")) ↔
        ¬ Pattern.HasLooseOffset settings.timestamp.format) ∧
    ∀ directory disk s, Service.ofListener settings directory disk = .started s →
      ((∃ es s' i w, s.run? es = some s' ∧ s'.log.writer? i = some w ∧ w.stage = .broken) ↔
        settings.timestamp.enabled = true ∧ Pattern.HasLooseOffset settings.timestamp.format) := by
  have hreads := (Settings.timestamp_of_check hcheck).1
  refine ⟨exists_record?_iff hreads, ?_⟩
  intro directory disk s hstarted
  constructor
  · rintro ⟨es, s', i, w, hrun, hw, hbroken⟩
    have htimed : s'.Timed settings :=
      Service.run_states (fun h hmove => h.move hcheck hmove) (Service.timed_of_started hstarted) hrun
    rw [SharedLog.writer?_eq_some] at hw
    have hsuits := htimed.writer i w hw
    obtain ⟨t, htext⟩ := hsuits.broken hbroken
    exact ⟨hsuits.enabled, (record?_eq_none_iff hreads t).1 htext⟩
  · rintro ⟨hon, hloose⟩
    have htext := (record?_eq_none_iff hreads ⟨⟨0, 0⟩, .utc⟩).2 hloose
    obtain ⟨store, fresh, roster, -, -, rfl⟩ := Service.eq_of_started hstarted
    exact Service.exists_broken_writer rfl hcheck hon htext

/-- The settings that nobody has changed pass the check, and their pattern writes every time. -/
theorem accepted_pattern_renders_iff_default :
    ({} : Settings).check = .ok () ∧
      ∀ t : LocalTime, ∃ text,
        record? t ({} : Settings).timestamp.format = some ("timestamp:" ++ text ++ "\n") := by
  have hcheck : ({} : Settings).check = .ok () := by decide +kernel
  refine ⟨hcheck, ?_⟩
  intro t
  refine ((accepted_pattern_renders_iff hcheck).1 t).2 ?_
  obtain ⟨items, hitems⟩ := Option.isSome_iff_exists.1 (Settings.timestamp_of_check hcheck).1
  rw [← Pattern.looseOffset_mem_iff hitems]
  have hwritable : ∀ items ∈ Pattern.parse? ({} : Settings).timestamp.format,
      Pattern.Item.looseOffset ∉ items := by
    decide +kernel
  exact hwritable items (Option.mem_def.2 hitems)

/-- **The check accepts a pattern that has no text.** -/
theorem accepted_pattern_without_text :
    ¬ ∀ settings : Settings, settings.check = .ok () → ∀ t : LocalTime, ∃ text,
      record? t settings.timestamp.format = some ("timestamp:" ++ text ++ "\n") := by
  intro h
  have hcheck : ({ timestamp := { format := "%#z" } } : Settings).check = .ok () := by decide +kernel
  have hnone : record? ⟨⟨0, 0⟩, .fixed 0⟩ "%#z" = none := by decide +kernel
  obtain ⟨text, htext⟩ := h _ hcheck ⟨⟨0, 0⟩, .fixed 0⟩
  rw [hnone] at htext
  cases htext

end EchoLog
