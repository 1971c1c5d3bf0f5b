import EchoLog.Proofs.Framing.Look
import EchoLog.Proofs.SharedLog.Chronicle
/-!
# What a session makes of its input

A session has cut lines from what it received and holds the rest (`Session.Account`).  Under the policy
that keeps the rest, the lines and the rest are the input, so the lines are the first lines of the
input; when it waits for more bytes, or has learnt that none will come, they are all lines of it.  This
is kept by every move, whatever fails (`Accounts.move`), and says nothing yet of what the store did with
the lines.
-/

namespace EchoLog

/-! ## What a task is -/

/-- What never changes about a task. -/
inductive Task.Kind where
  | session (limit : Nat) (remainder : Remainder)
  | writer (format : String)
  | caller (request : Request)
deriving DecidableEq, Repr

namespace Task

/-- The kind of a task. -/
def kind : Task → Kind
  | .session s => .session s.framer.limit s.framer.remainder
  | .writer w => .writer w.format
  | .caller c => .caller c.request

theorem kind_own {i : Nat} {cancelled : Bool} {e : Event} {t t' : Task}
    (h : Own i cancelled e t t') : t'.kind = t.kind := by
  cases h with
  | poll => rfl
  | @receive s input =>
      rcases input with _ | bytes
      · rfl
      · cases bytes <;> rfl
  | @frame s =>
      obtain ⟨hlimit, hpolicy⟩ := Framer.look_framer s.framer s.held
      exact congrArg₂ Kind.session hlimit hpolicy
  | @send s left result =>
      rcases result with _ | n
      · rfl
      · cases n <;> rfl
  | @flush s result => cases result <;> rfl
  | leave => cases t <;> rfl
  | tick => rfl

theorem kind_answered (t : Task) (answer : Answer) : (t.answered answer).kind = t.kind := by
  cases t with
  | session s =>
      simp only [answered]
      cases logOf answer <;> rfl
  | writer w =>
      simp only [answered]
      cases logOf answer <;> rfl
  | caller c => rfl

end Task

/-- **No move changes what a task is.** -/
theorem SharedLog.Move.kind {g g' : SharedLog} {e : Event} (hm : Move g e g') (j : Nat) :
    (g'.task? j).map Task.kind = (g.task? j).map Task.kind := by
  cases hm with
  | @own i _ t t' more ht hown =>
      by_cases hij : i = j
      · subst hij
        rw [task?_report_self ht, ht, Option.map_some, Option.map_some, Task.kind_own hown]
      · exact congrArg _ (task?_setTask_other (Ne.symm hij))
  | ask hr hqueued => rfl
  | grant hnone hw => rfl
  | file hw hmore => rfl
  | @release i answer t hw ht =>
      by_cases hij : i = j
      · subst hij
        refine (congrArg _ (task?_setTask_self ht)).trans ?_
        rw [ht, Option.map_some, Option.map_some, Task.kind_answered]
      · exact congrArg _ (task?_setTask_other (Ne.symm hij))
  | fire hi => exact congrArg _ (task?_fire g _ j)
  | outside change => rfl

/-- Some session is at a place where one of its kind was. -/
theorem SharedLog.exists_session_of_kind {g : SharedLog} {i : Nat} {s : Session}
    (h : (g.task? i).map Task.kind = some (Task.session s).kind) : ∃ s', g.session? i = some s' ∧
      s'.framer.limit = s.framer.limit ∧ s'.framer.remainder = s.framer.remainder := by
  obtain ⟨t, ht, hk⟩ := Option.map_eq_some_iff.1 h
  cases t with
  | session s' =>
      obtain ⟨hlimit, hpolicy⟩ := Task.Kind.session.inj hk
      exact ⟨s', session?_eq_some.2 ht, hlimit, hpolicy⟩
  | writer w => cases hk
  | caller d => cases hk

/-! ## Sessions -/

namespace Session

/-- All that can be cut from what is held has been cut: the session wants more bytes, or its peer has
none. -/
def IsDrained (s : Session) : Prop :=
  s.stage = .receiving ∨ ∃ n, s.stage = .ended (.ok (.peerClosed n))

/-- What a session has received and what it has cut from it. -/
structure Account (s : Session) (input : Bytes) (offered : List Bytes) : Prop where
  tracks : s.framer.Tracks s.held
  packets : ∀ l ∈ offered, IsLine l ∧ l.length ≤ s.framer.limit
  rest : s.framer.remainder = .keep → ∃ rest, offered.flatten ++ rest = input ∧
    (s.stage ≠ .ended (.ok .cancelled) → rest = s.held)
  drained : s.IsDrained → newline ∉ s.held

variable {s : Session} {input : Bytes} {offered : List Bytes}

theorem account_start (peer : Endpoint) (settings : SessionSettings) :
    (start peer settings).Account [] [] :=
  ⟨Framer.tracks_of_searched_zero rfl _, by simp, fun _ => ⟨[], rfl, fun _ => rfl⟩,
    fun _ => List.not_mem_nil⟩

namespace Account

/-- **Under the keeping policy the packets are the first lines of the input**, and all of them when
nothing more can be cut. -/
theorem packets_first (h : s.Account input offered) (hkeep : s.framer.remainder = .keep) :
    offered <+: lines input ∧ (s.IsDrained → offered = lines input) := by
  obtain ⟨rest, hrest, hheld⟩ := h.rest hkeep
  have hlines : ∀ l ∈ offered, IsLine l := fun l hl => (h.packets l hl).1
  refine ⟨prefix_lines hlines hrest, ?_⟩
  intro hdrained
  have hstage : s.stage ≠ .ended (.ok .cancelled) := by
    rcases hdrained with e | ⟨n, e⟩ <;> simp [e]
  have hopen := h.drained hdrained
  rw [← hheld hstage] at hopen
  rw [← hrest, lines_flatten_append hlines, lines_open hopen, List.append_nil]

/-- A move that changes only the stage, or ends a poll. -/
theorem goes (h : s.Account input offered) (hstage : s.stage ≠ .ended (.ok .cancelled)) {stage : Stage}
    {polling : Bool} (hnext : ¬ ({ s with stage := stage, polling := polling } : Session).IsDrained) :
    ({ s with stage := stage, polling := polling } : Session).Account input offered := by
  refine ⟨h.tracks, h.packets, ?_, fun hdrained => absurd hdrained hnext⟩
  intro hkeep
  obtain ⟨rest, hrest, hheld⟩ := h.rest hkeep
  exact ⟨rest, hrest, fun _ => hheld hstage⟩

theorem fail (h : s.Account input offered) (hstage : s.stage ≠ .ended (.ok .cancelled)) (f : Failure) :
    (s.fail f).Account input offered :=
  h.goes hstage (by rintro (e | ⟨n, e⟩) <;> cases e)

theorem echo (h : s.Account input offered) (hstage : s.stage ≠ .ended (.ok .cancelled))
    (left : Bytes) : (s.echo left).Account input offered := by
  refine h.goes hstage ?_
  cases left.isEmpty <;> rintro (e | ⟨n, e⟩) <;> cases e

theorem stored (h : s.Account input offered) (hstage : s.stage ≠ .ended (.ok .cancelled))
    (answer : Except Failure Bytes) : (s.stored answer).Account input offered := by
  cases answer with
  | error f => exact h.fail hstage f
  | ok log => exact h.echo hstage log

theorem sent (h : s.Account input offered) (hstage : s.stage ≠ .ended (.ok .cancelled)) (left : Bytes)
    (result : Except IoError Nat) : (s.sent left result).Account input offered := by
  rcases result with cause | n
  · exact h.fail hstage _
  · cases n with
    | zero => exact h.fail hstage _
    | succ n => exact h.echo hstage _

theorem flushed (h : s.Account input offered) (hstage : s.stage ≠ .ended (.ok .cancelled))
    (result : Except IoError Unit) : (s.flushed result).Account input offered := by
  cases result with
  | error cause => exact h.fail hstage _
  | ok _ => exact h.goes hstage (by rintro (e | ⟨n, e⟩) <;> cases e)

theorem poll (h : s.Account input offered) : s.poll.Account input offered :=
  ⟨h.tracks, h.packets, h.rest, h.drained⟩

theorem leave (h : s.Account input offered) : s.leave.Account input offered := by
  refine ⟨Framer.tracks_of_searched_zero rfl _, h.packets, ?_, fun _ => List.not_mem_nil⟩
  -- what was held is dropped, and counts as the rest from now on
  intro hkeep
  obtain ⟨rest, hrest, -⟩ := h.rest hkeep
  exact ⟨rest, hrest, fun hne => absurd rfl hne⟩

/-- Bytes that arrive are held after those that were not cut yet. -/
theorem receive (h : s.Account input offered) (hstage : s.stage = .receiving)
    (i : Nat) (arrived : Except IoError Bytes) :
    (s.receive arrived).Account (input ++ (share i (Event.receive i arrived).arrival).flatten)
      offered := by
  have hne : s.stage ≠ .ended (.ok .cancelled) := by rw [hstage]; simp
  rcases arrived with cause | bytes
  · rw [Event.arrival, share_nil, List.flatten_nil, List.append_nil]
    · exact h.fail hne _
    · simp
  · have hshare : (share i (Event.receive i (.ok bytes)).arrival).flatten = bytes := by
      rw [Event.arrival, show [(i, bytes)] = [bytes].map (i, ·) from rfl, share_self]
      exact List.append_nil _
    rw [hshare]
    cases bytes with
    | nil =>
        rw [List.append_nil]
        refine ⟨h.tracks, h.packets, ?_, fun _ => h.drained (.inl hstage)⟩
        intro hkeep
        obtain ⟨rest, hrest, hheld⟩ := h.rest hkeep
        exact ⟨rest, hrest, fun _ => hheld hne⟩
    | cons b chunk =>
        refine ⟨h.tracks.feed _, h.packets, ?_, ?_⟩
        · intro hkeep
          obtain ⟨rest, hrest, hheld⟩ := h.rest hkeep
          refine ⟨s.held ++ b :: chunk, ?_, fun _ => rfl⟩
          rw [← List.append_assoc, ← hheld hne, hrest]
        · rintro (e | ⟨n, e⟩) <;> cases e

/-- **Looking for a packet takes a line off what is held, or finds none.** -/
theorem frame (h : s.Account input offered) (hstage : s.stage = .framing) :
    s.frame.Account input (offered ++ (Task.session s.frame).ready) := by
  have hne : s.stage ≠ .ended (.ok .cancelled) := by rw [hstage]; simp
  have htracks := h.tracks.look
  obtain ⟨hlimit, hpolicy⟩ := Framer.look_framer s.framer s.held
  have hframer : s.frame.framer = (s.framer.look s.held).framer := rfl
  rcases Framer.look_cases h.tracks with ⟨l, rest, hl, hle, hheld, e⟩ | ⟨hopen, hle, e⟩ | ⟨-, e⟩
  · have hready : (Task.session s.frame).ready = [l] := by
      simp only [Session.frame, e, Task.ready, Task.request?, Option.bind_some, Request.bytes?,
        Option.toList_some]
    rw [hready]
    refine ⟨htracks, ?_, ?_, ?_⟩
    · intro m hm
      rw [hframer, hlimit]
      rcases List.mem_append.1 hm with hm | hm
      · exact h.packets m hm
      · rw [List.mem_singleton.1 hm]
        exact ⟨hl, hle⟩
    · intro hkeep
      rw [hframer, hpolicy] at hkeep
      obtain ⟨rest', hrest, hheld'⟩ := h.rest hkeep
      refine ⟨rest, ?_, ?_⟩
      · rw [List.flatten_append, List.flatten_singleton, List.append_assoc, ← hheld, ← hheld' hne,
          hrest]
      · intro _
        simp only [Session.frame, e, hkeep, Remainder.kept]
    · simp only [Session.frame, e, IsDrained]
      rintro (e | ⟨n, e⟩) <;> cases e
  · have hready : (Task.session s.frame).ready = [] := by
      simp only [Session.frame, e, Task.ready, Task.request?, Option.bind_none, Option.toList_none]
    rw [hready, List.append_nil]
    have hsame : s.frame.held = s.held := by simp only [Session.frame, e]
    refine ⟨htracks, ?_, ?_, ?_⟩
    · intro m hm
      rw [hframer, hlimit]
      exact h.packets m hm
    · intro hkeep
      rw [hframer, hpolicy] at hkeep
      obtain ⟨rest, hrest, hheld⟩ := h.rest hkeep
      exact ⟨rest, hrest, fun _ => (hheld hne).trans hsame.symm⟩
    · intro _
      rw [hsame]
      exact hopen
  · have hready : (Task.session s.frame).ready = [] := by
      simp only [Session.frame, e, Task.ready, Task.request?, Option.bind_none, Option.toList_none]
    have hfail : s.frame = s.fail s.framer.tooLarge := by
      simp only [Session.frame, e, Session.fail]
    rw [hready, List.append_nil, hfail]
    exact h.fail hne _

end Account

end Session

/-- An event of one task brings nothing to another. -/
theorem share_arrival_other {i j : Nat} {cancelled : Bool} {e : Event} {t t' : Task}
    (hown : Task.Own i cancelled e t t') (h : i ≠ j) : share j e.arrival = [] := by
  cases hown with
  | @receive s arrived =>
      cases arrived with
      | error cause => rfl
      | ok chunk => exact share_other h [chunk]
  | _ => rfl

/-! ## All tasks -/

/-- The account of a task.  Callers only read. -/
def Task.Account : Task → Bytes → List Bytes → Prop
  | .session s, input, offered => s.Account input offered
  | .writer _, _, _ => True
  | .caller c, _, offered => (c.request = .snapshot ∨ c.request = .size) ∧ offered = []

namespace Task.Account

variable {i : Nat} {cancelled : Bool} {e : Event} {t t' : Task} {input : Bytes} {offered : List Bytes}

/-- **A move of a task by itself keeps its account.** -/
theorem own (h : t.Account input offered) (hown : Task.Own i cancelled e t t') :
    t'.Account (input ++ (share i e.arrival).flatten) (offered ++ t'.ready) := by
  cases hown with
  | poll hwaits =>
      simpa [Task.Account, Event.arrival, Task.ready_poll hwaits] using Session.Account.poll h
  | @receive s arrived hstage =>
      rw [Task.ready_receive, List.append_nil]
      exact Session.Account.receive h hstage i arrived
  | frame hstage =>
      simpa [Task.Account, Event.arrival] using Session.Account.frame h hstage
  | @send s left result hstage =>
      simpa [Task.Account, Event.arrival, Task.ready_sent] using
        Session.Account.sent h (by simp [hstage]) left result
  | @flush s result hstage =>
      simpa [Task.Account, Event.arrival, Task.ready_flushed] using
        Session.Account.flushed h (by simp [hstage]) result
  | leave hleave =>
      cases t with
      | session s =>
          have hready : (Task.session s.leave).ready = [] := Task.ready_leave hleave
          simpa [Task.Account, Task.leave, Event.arrival, hready] using Session.Account.leave h
      | writer w => exact trivial
      | caller c => cases hleave
  | tick => exact trivial

/-- An answer from the store keeps the account. -/
theorem answered (h : t.Account input offered) {r : Request} (hr : t.request? = some r)
    (answer : Answer) : (t.answered answer).Account input offered := by
  cases t with
  | session s =>
      refine Session.Account.stored h ?_ _
      intro hstage
      simp only [Task.request?, hstage] at hr
      cases hr
  | writer w => exact trivial
  | caller c => exact h

end Task.Account

namespace SharedLog

/-- The accounts of all tasks. -/
structure Accounts (g : SharedLog) (c : Chronicle) : Prop where
  task : ∀ i t, g.task? i = some t → t.Account (share i c.received).flatten (share i c.offered)
  nobody : ∀ i, g.task? i = none → share i c.offered = []

variable {g g' : SharedLog} {c : Chronicle} {e : Event}

/-- Moves that change no task and note nothing of what tasks received or have ready. -/
theorem Accounts.of_eq {c' : Chronicle} (h : g.Accounts c) (htask : ∀ i, g'.task? i = g.task? i)
    (hreceived : c'.received = c.received) (hoffered : c'.offered = c.offered) : g'.Accounts c' := by
  refine ⟨?_, ?_⟩
  · intro i t ht
    rw [hreceived, hoffered]
    exact h.task i t (htask i ▸ ht)
  · intro i hi
    rw [hoffered]
    exact h.nobody i (htask i ▸ hi)

/-- **Every move keeps the accounts.** -/
theorem Accounts.move (h : g.Accounts c) (hq : g.Queue) (hm : Move g e g') :
    g'.Accounts (c.note g e g') := by
  cases hm with
  | @own i _ t t' more ht hown =>
      have hself : ((g.setTask i t').report more).task? i = some t' := task?_report_self ht more
      rw [Chronicle.note_own hown hself]
      refine ⟨?_, ?_⟩
      · intro j u hu
        rw [share_append, share_append, List.flatten_append]
        rcases task?_setTask_cases ht hu with ⟨rfl, rfl⟩ | ⟨hij, hu⟩
        · rw [share_self]
          exact (h.task i t ht).own hown
        · rw [share_other hij, share_arrival_other hown hij, List.flatten_nil, List.append_nil,
            List.append_nil]
          exact h.task j u hu
      · intro j hj
        obtain ⟨hij, hj⟩ := task?_setTask_eq_none ht hj
        rw [share_append, share_other hij, List.append_nil]
        exact h.nobody j hj
  | ask hr hqueued => exact h.of_eq (fun _ => rfl) rfl rfl
  | grant hnone hw => exact h.of_eq (fun _ => rfl) rfl rfl
  | file hw hmore => exact h.of_eq (fun _ => rfl) rfl rfl
  | @release i answer t hw ht =>
      refine ⟨?_, ?_⟩
      · intro j u hu
        rcases task?_setTask_cases ht hu with ⟨rfl, rfl⟩ | ⟨-, hu⟩
        · obtain ⟨r, hr, -⟩ := hq.holder _ _ hw
          rw [request?, ht] at hr
          exact (h.task i t ht).answered hr answer
        · exact h.task j u hu
      · intro j hj
        exact h.nobody j (task?_setTask_eq_none ht hj).2
  | fire hi => exact h.of_eq (task?_fire g _) rfl rfl
  | outside change => exact h.of_eq (fun _ => rfl) rfl rfl

end SharedLog

end EchoLog
