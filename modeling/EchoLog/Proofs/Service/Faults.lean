import EchoLog.Proofs.Service.Log
import EchoLog.Proofs.SharedLog.Cancellation
/-!
# How tasks end

A session ends because its peer has closed the connection, or because of the connection, or because a packet
is too long, or because it was told to stop, or because the store has refused it something; each time that
is a matter of events at its own place (`Fate`).  The store has one way to fail, and where no file step fails
it refuses nobody.  So what a task reports when it ends goes to the coordinator only if the store has refused
it something and the settings say that this is fatal (`Mild`, `SharedLog.Serene`).
-/

namespace EchoLog

open SharedLog

/-- What can be the cause of a stop, clients and the store apart. -/
inductive StopCause (es : List ServiceEvent) : Prop where
  | signal : .signal ∈ es → StopCause es
  | request : .requestStop ∈ es → StopCause es
  | listener {cause : IoError} : cause.isTransient = false → .acceptFails cause ∈ es → StopCause es

theorem StopCause.append {es : List ServiceEvent} (h : StopCause es) (more : List ServiceEvent) :
    StopCause (es ++ more) := by
  cases h with
  | signal h => exact .signal (List.mem_append_left _ h)
  | request h => exact .request (List.mem_append_left _ h)
  | listener hcause h => exact .listener hcause (List.mem_append_left _ h)

/-- How the session at a place can have ended, by what has happened there. -/
inductive Fate (es : List ServiceEvent) (i : Nat) : Except Failure SessionEnd → Prop where
  | closed (n : Nat) : .log (.receive i (.ok [])) ∈ es → Fate es i (.ok (.peerClosed n))
  | cancelled : StopCause es → Fate es i (.ok .cancelled)
  | connection {e : Event} (fault : ConnectionFault) : .log e ∈ es → e.isContact i = true →
      Fate es i (.error (.connection fault))
  | oversized (limit : Nat) : .log (.frame i) ∈ es → Fate es i (.error (.packetTooLarge limit))
  /-- The store has answered, and refused it something. -/
  | refused (cause : IoError) : .log .release ∈ es → Fate es i (.error (.storage cause))

theorem Fate.append {es : List ServiceEvent} {i : Nat} {r : Except Failure SessionEnd}
    (h : Fate es i r) (more : List ServiceEvent) : Fate (es ++ more) i r := by
  cases h with
  | closed n h => exact .closed n (List.mem_append_left _ h)
  | cancelled h => exact .cancelled (h.append more)
  | connection fault h hcontact => exact .connection fault (List.mem_append_left _ h) hcontact
  | oversized limit h => exact .oversized limit (List.mem_append_left _ h)
  | refused cause h => exact .refused cause (List.mem_append_left _ h)

/-! ## One task -/

namespace Session

variable {s : Session} {i : Nat} {es : List ServiceEvent} {r : Except Failure SessionEnd}

theorem result?_echo (s : Session) (left : Bytes) : (s.echo left).result? = none := by
  unfold echo result?
  cases left.isEmpty <;> rfl

/-- What a session makes of a read. -/
theorem fate_receive {input : Except IoError Bytes} (h : (s.receive input).result? = some r)
    (hmem : .log (.receive i input) ∈ es) : Fate es i r := by
  rcases input with cause | bytes
  · cases h
    exact .connection _ hmem (beq_self_eq_true i)
  · cases bytes with
    | nil =>
        cases h
        exact .closed _ hmem
    | cons b bytes => cases h

theorem fate_frame (h : s.frame.result? = some r) (hmem : .log (.frame i) ∈ es) : Fate es i r := by
  unfold frame result? at h
  cases hcut : (s.framer.look s.held).cut <;> simp only [hcut] at h <;> cases h
  exact .oversized _ hmem

theorem fate_sent {left : Bytes} {result : Except IoError Nat}
    (h : (s.sent left result).result? = some r) (hmem : .log (.send i result) ∈ es) : Fate es i r := by
  rcases result with cause | n
  · cases h
    exact .connection _ hmem (beq_self_eq_true i)
  · cases n with
    | zero =>
        cases h
        exact .connection _ hmem (beq_self_eq_true i)
    | succ n => cases (result?_echo s (left.drop (n + 1))).symm.trans h

theorem fate_flushed {result : Except IoError Unit} (h : (s.flushed result).result? = some r)
    (hmem : .log (.flush i result) ∈ es) : Fate es i r := by
  rcases result with cause | _
  · cases h
    exact .connection _ hmem (beq_self_eq_true i)
  · cases h

end Session

/-- **A session that moves by itself comes to an end only through what happens at its place.** -/
theorem fate_own {i : Nat} {cancelled : Bool} {e : Event} {t : Task} {x : Session}
    {es : List ServiceEvent} {r : Except Failure SessionEnd}
    (hown : Task.Own i cancelled e t (.session x)) (hr : x.result? = some r) (hmem : .log e ∈ es)
    (hstop : cancelled = true → StopCause es) : Fate es i r := by
  generalize ht' : Task.session x = t' at hown
  cases hown with
  | poll hwaits _ _ =>
      cases ht'
      cases (Session.result?_of_canLeave hwaits).symm.trans hr
  | receive _ _ _ =>
      cases ht'
      exact Session.fate_receive hr hmem
  | frame _ =>
      cases ht'
      exact Session.fate_frame hr hmem
  | send _ _ =>
      cases ht'
      exact Session.fate_sent hr hmem
  | flush _ _ =>
      cases ht'
      exact Session.fate_flushed hr hmem
  | leave hleave hcancelled =>
      cases t with
      | session s =>
          cases ht'
          cases hr
          exact .cancelled (hstop hcancelled)
      | writer w => cases ht'
      | caller c => cases ht'
  | tick _ _ => cases ht'

namespace Service

/-- A session's end is its result. -/
theorem ending?_session {x : Session} {f : Failure}
    (h : ending? (.session x) = some (.error f)) : x.result? = some (.error f) := by
  obtain ⟨r, hr, hf⟩ := Option.map_eq_some_iff.1 h
  cases r with
  | error f' =>
      cases hf
      exact hr
  | ok _ => cases hf

/-- A task that moves by itself does not fail in a way that stops the service. -/
theorem escalates_own {i : Nat} {cancelled : Bool} {e : Event} {t t' : Task} {f : Failure}
    (hown : Task.Own i cancelled e t t') (hf : ending? t' = some (.error f)) :
    f.escalates false = false := by
  cases t' with
  | session x =>
      -- the history in which everything has happened that could end it
      have hfate : Fate [.log e, .signal] i (.error f) :=
        fate_own hown (ending?_session hf) List.mem_cons_self fun _ =>
          .signal (List.mem_cons_of_mem _ List.mem_cons_self)
      generalize hr : (Except.error f : Except Failure SessionEnd) = r at hfate
      cases hfate <;> cases hr <;> rfl
  | writer w =>
      generalize ht' : Task.writer w = t' at hown
      cases hown with
      | leave hleave _ =>
          cases t <;> cases ht'
          cases hf
      | @tick w now time _ _ =>
          cases ht'
          unfold Timestamp.Writer.tick ending? at hf
          cases hrecord : Timestamp.record? time w.format <;> simp [hrecord] at hf
      | _ => cases ht'
  | caller c => cases hf

/-- A task that gets an answer ends only if the store has refused it something. -/
theorem ending?_answered {t : Task} {answer : Answer} {request : Request} {r : Except Failure Unit}
    (hgets : request.Gets answer) (hr : ending? (t.answered answer) = some r) :
    ∃ cause, r = .error (.storage cause) := by
  cases answer with
  | error f =>
      obtain ⟨cause, rfl⟩ : ∃ cause, f = .storage cause := by
        cases request <;> exact hgets
      cases t with
      | caller c => cases hr
      | _ =>
          cases hr
          exact ⟨cause, rfl⟩
  | ok reply =>
      cases t with
      | session s =>
          have hnone : (s.stored (Task.logOf (.ok reply))).result? = none := by
            cases reply <;> exact Session.result?_echo ..
          simp only [Task.answered, ending?, hnone] at hr
          cases hr
      | writer w => cases reply <;> cases hr
      | caller c => cases hr

/-- Whoever ends with a failure of the store was refused something. -/
theorem wasRefused_of_ending? {t : Task} {cause : IoError}
    (h : ending? t = some (.error (.storage cause))) : t.wasRefused = true := by
  cases t with
  | session x =>
      have hr := ending?_session h
      unfold Session.result? at hr
      split at hr
      · rename_i hstage
        cases hr
        rw [Task.wasRefused, hstage]
      · cases hr
  | writer w =>
      unfold ending? at h
      cases hstage : w.stage <;> simp only [hstage] at h <;> cases h
      rw [Task.wasRefused, hstage]
  | caller c => cases h

/-! ## All tasks -/

variable {s s' : Service} {e : ServiceEvent} {a : Annals}

/-- No task has failed in a way that stops the service, but for what the store has refused it. -/
def Mild (g : SharedLog) : Prop :=
  ∀ i t f, g.task? i = some t → ending? t = some (.error f) → f.escalates false = false

/-- **Every move of the log keeps it so.** -/
theorem Mild.move {g g' : SharedLog} {e : Event} (h : Mild g) (hq : g.Queue) (hm : SharedLog.Move g e g') :
    Mild g' := by
  intro i t' f ht' hf
  cases hm with
  | own more ht hown =>
      rcases task?_setTask_cases ht ht' with ⟨-, rfl⟩ | ⟨-, ht'⟩
      · exact escalates_own hown hf
      · exact h i t' f ht' hf
  | ask _ _ => exact h i t' f ht' hf
  | grant _ _ => exact h i t' f ht' hf
  | file _ _ => exact h i t' f ht' hf
  | release hw ht =>
      rcases task?_setTask_cases ht ht' with ⟨-, rfl⟩ | ⟨-, ht'⟩
      · obtain ⟨r, -, hgets⟩ := hq.holder _ _ hw
        obtain ⟨cause, hcause⟩ := ending?_answered hgets hf
        cases hcause
        rfl
      · exact h i t' f ht' hf
  | fire _ => exact h i t' f ((task?_fire g _ i).symm.trans ht') hf
  | outside _ => exact h i t' f ht' hf

/-- A task that joins has failed at nothing but its settings, and has been refused nothing. -/
theorem Joins.ending {t : Task} {token : Bool} (h : s.Joins e t token) :
    (∀ f, ending? t = some (.error f) → f.escalates false = false) ∧ t.wasRefused = false := by
  cases h with
  | writer uptime now =>
      refine ⟨?_, ?_⟩
      · intro f hf
        rcases Task.Starting.stage_start uptime now (1000 * s.settings.timestamp.intervalSeconds)
          s.settings.timestamp.format with ⟨fault, e⟩ | e | e <;> rw [ending?, e] at hf <;> cases hf
        rfl
      · exact Task.Starting.wasRefused (.writer ..)
  | session peer now _ => exact ⟨fun _ hf => (by cases hf), rfl⟩
  | outsider request => exact ⟨fun _ hf => (by cases hf), rfl⟩
  | remover _ _ _ => exact ⟨fun _ hf => (by cases hf), rfl⟩

/-- **Every move of the service keeps it so.** -/
theorem Handling.mild {g : SharedLog} (h : Handling s e g) (hq : s.log.Queue) (hmild : Mild s.log) :
    Mild g := by
  rcases h.cases_log with ⟨inner, rfl, hm⟩ | ⟨hnone, -⟩
  · exact hmild.move hq hm
  · intro i t f ht hf
    rcases h.joins_of_none hnone ht with ht | ⟨-, token, hjoins⟩
    · exact hmild i t f ht hf
    · exact hjoins.ending.1 f hf

/-- Events other than file steps that fail. -/
def isFlawless (s : Service) (e : ServiceEvent) : Bool :=
  e.log?.all s.log.isFlawless

/-- **Where no file step fails the store refuses nobody.** -/
theorem Handling.serene {g : SharedLog} (h : Handling s e g) (hkind : s.isFlawless e = true)
    (hserene : s.log.Serene) : g.Serene := by
  rcases h.cases_log with ⟨inner, rfl, hm⟩ | ⟨hnone, hgrows⟩
  · exact hserene.move hkind hm
  · refine serene_of_tasks ?_ fun i w hw => hserene.holder (hgrows.holder ▸ hw)
    intro i t ht
    rcases h.joins_of_none hnone ht with ht | ⟨-, token, hjoins⟩
    · exact hserene.task ht
    · exact hjoins.ending.2

/-- A task that was refused nothing does not stop the service, whatever the settings say. -/
theorem Mild.escalates {g : SharedLog} (h : Mild g) {i : Nat} {t : Task} {f : Failure} {fatal : Bool}
    (hpolicy : fatal = true → g.Serene) (ht : g.task? i = some t)
    (hf : ending? t = some (.error f)) : f.escalates fatal = false := by
  have hmild := h i t f ht hf
  cases fatal with
  | false => exact hmild
  | true =>
      have hrefused := (hpolicy rfl).task ht
      cases f with
      | storage cause => exact absurd ((wasRefused_of_ending? hf).symm.trans hrefused) (by simp)
      | _ => exact hmild

/-- Every session that has ended has done so by what happened at its place. -/
def Fated (a : Annals) (s : Service) : Prop :=
  ∀ i x r, s.log.session? i = some x → x.result? = some r → Fate a.events i r

/-- **Every move keeps it so.** -/
theorem Fated.move (h : Fated a s) (hq : s.log.Queue) (hm : Move s e s')
    (hstop : ∀ i x, s.log.session? i = some x → s.log.isCancelled i = true → StopCause a.events) :
    Fated (a.note s e s') s' := by
  intro i x r hx hr
  have ht' := session?_eq_some.1 hx
  have hold : s.log.task? i = some (.session x) → Fate (a.events ++ [e]) i r := fun ht =>
    (h i x r (session?_eq_some.2 ht) hr).append _
  have hhandling := hm.handling
  rcases hhandling.cases_log with ⟨inner, rfl, hinner⟩ | ⟨hnone, -⟩
  · generalize s'.log = g at hinner ht'
    cases hinner with
    | @own j _ t t' more ht hown =>
        rcases task?_setTask_cases ht ht' with ⟨rfl, rfl⟩ | ⟨-, ht'⟩
        · refine fate_own hown hr (List.mem_append_right _ List.mem_cons_self) fun hcancelled => ?_
          have hkind := Task.kind_own hown
          cases t with
          | session y => exact (hstop j y (session?_eq_some.2 ht) hcancelled).append _
          | _ => cases hkind
        · exact hold ht'
    | ask _ _ => exact hold ht'
    | grant _ _ => exact hold ht'
    | file _ _ => exact hold ht'
    | @release j answer t hw ht =>
        rcases task?_setTask_cases ht ht' with ⟨rfl, hanswered⟩ | ⟨-, ht'⟩
        · obtain ⟨request, -, hgets⟩ := hq.holder _ _ hw
          have hresult : ending? (t.answered answer) = some (r.map fun _ => ()) := by
            rw [← hanswered, ending?, hr]
            rfl
          obtain ⟨cause, hcause⟩ := ending?_answered hgets hresult
          cases r <;> cases hcause
          exact .refused cause (List.mem_append_right _ List.mem_cons_self)
        · exact hold ht'
    | fire _ => exact hold ((task?_fire s.log _ i).symm.trans ht')
    | outside _ => exact hold ht'
  · rcases hhandling.joins_of_none hnone ht' with ht | ⟨-, token, hjoins⟩
    · exact hold ht
    · generalize hx' : Task.session x = t at hjoins
      cases hjoins with
      | session peer now _ =>
          cases hx'
          cases hr
      | _ => cases hx'

end Service

end EchoLog
