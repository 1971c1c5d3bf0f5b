import EchoLog.Proofs.SharedLog.Accounts
/-!
# What never changes about a session

A session keeps its peer and what it took from the settings, whatever happens to it or around it.
-/

namespace EchoLog

/-- A session with a peer, under some settings. -/
structure Session.IsOf (peer : Endpoint) (settings : SessionSettings) (s : Session) : Prop where
  peer : s.peer = peer
  readSize : s.readSize = settings.readSize
  limit : s.framer.limit = settings.maxPacketBytes
  remainder : s.framer.remainder = settings.remainder

namespace Session

/-! ## What only reads and looks change -/

theorem held_sent (s : Session) (left : Bytes) (result : Except IoError Nat) :
    (s.sent left result).held = s.held := by
  rcases result with cause | n
  · rfl
  · cases n <;> rfl

theorem held_flushed (s : Session) (result : Except IoError Unit) :
    (s.flushed result).held = s.held := by
  cases result <;> rfl

theorem held_stored (s : Session) (answer : Except Failure Bytes) :
    (s.stored answer).held = s.held := by
  cases answer <;> rfl

end Session

/-- A session that moves by itself keeps its peer and the size of its reads. -/
theorem Session.same_own {i : Nat} {cancelled : Bool} {e : Event} {s s' : Session}
    (hown : Task.Own i cancelled e (.session s) (.session s')) :
    s'.peer = s.peer ∧ s'.readSize = s.readSize := by
  cases hown with
  | poll => exact ⟨rfl, rfl⟩
  | @receive _ input =>
      rcases input with cause | chunk
      · exact ⟨rfl, rfl⟩
      · cases chunk <;> exact ⟨rfl, rfl⟩
  | frame => exact ⟨rfl, rfl⟩
  | @send _ _ result =>
      rcases result with cause | n
      · exact ⟨rfl, rfl⟩
      · cases n <;> exact ⟨rfl, rfl⟩
  | @flush _ result => cases result <;> exact ⟨rfl, rfl⟩
  | leave => exact ⟨rfl, rfl⟩

namespace Session.IsOf

variable {peer : Endpoint} {settings : SessionSettings} {s : Session}

theorem start (peer : Endpoint) (settings : SessionSettings) :
    (Session.start peer settings).IsOf peer settings :=
  ⟨rfl, rfl, rfl, rfl⟩

theorem own (h : s.IsOf peer settings) {i : Nat} {cancelled : Bool} {e : Event} {s' : Session}
    (hown : Task.Own i cancelled e (.session s) (.session s')) : s'.IsOf peer settings := by
  obtain ⟨hlimit, hpolicy⟩ := Task.Kind.session.inj (Task.kind_own hown)
  obtain ⟨hpeer, hsize⟩ := same_own hown
  exact ⟨hpeer.trans h.peer, hsize.trans h.readSize, hlimit.trans h.limit, hpolicy.trans h.remainder⟩

theorem stored (h : s.IsOf peer settings) (answer : Except Failure Bytes) :
    (s.stored answer).IsOf peer settings := by
  cases answer <;> exact ⟨h.peer, h.readSize, h.limit, h.remainder⟩

end Session.IsOf

namespace SharedLog

variable {g g' : SharedLog} {e : Event} {i : Nat}

/-- Where a session was, it is after a move, with its limit and its policy. -/
theorem Move.session?_kind (hm : Move g e g') {s : Session} (hs : g.session? i = some s) :
    ∃ s', g'.session? i = some s' ∧ s'.framer.limit = s.framer.limit ∧
      s'.framer.remainder = s.framer.remainder := by
  refine exists_session_of_kind ((hm.kind i).trans ?_)
  rw [session?_eq_some.1 hs, Option.map_some]

/-- **What a move is to a session**: none of its business, a move of its own, or an answer of the store. -/
theorem Move.session_cases (hm : Move g e g') {s' : Session} (hs' : g'.session? i = some s') :
    ∃ s, g.session? i = some s ∧
      ((s' = s ∧ e.place? ≠ some i) ∨ Task.Own i (g.isCancelled i) e (.session s) (.session s') ∨
        ∃ w answer, g.holder = some (i, w) ∧ e = .release ∧ s' = s.stored answer) := by
  have hsame : g'.task? i = g.task? i → e.place? ≠ some i → ∃ s, g.session? i = some s ∧
      ((s' = s ∧ e.place? ≠ some i) ∨ Task.Own i (g.isCancelled i) e (.session s) (.session s') ∨
        ∃ w answer, g.holder = some (i, w) ∧ e = .release ∧ s' = s.stored answer) := by
    intro htask hplace
    rw [session?, htask] at hs'
    exact ⟨s', hs', .inl ⟨rfl, hplace⟩⟩
  cases hm with
  | @own k _ t t' more ht hown =>
      by_cases hki : k = i
      · subst hki
        cases (task?_report_self ht more).symm.trans (session?_eq_some.1 hs')
        cases t with
        | session s => exact ⟨s, session?_eq_some.2 ht, .inr (.inl hown)⟩
        | writer w => cases Task.kind_own hown
        | caller d => cases Task.kind_own hown
      · refine hsame (task?_setTask_other (Ne.symm hki)) ?_
        rw [hown.place?]
        exact fun hk => hki (Option.some.inj hk)
  | ask => exact hsame rfl (by simp [Event.place?])
  | grant => exact hsame rfl (by simp [Event.place?])
  | file => exact hsame rfl (by simp [Event.place?])
  | @release k a t hw ht =>
      by_cases hki : k = i
      · subst hki
        have hself : ({ g.setTask k (t.answered a) with holder := none } : SharedLog).task? k =
            some (t.answered a) := task?_setTask_self ht
        have hanswered := Option.some.inj (hself.symm.trans (session?_eq_some.1 hs'))
        cases t with
        | session s =>
            cases hanswered
            exact ⟨s, session?_eq_some.2 ht, .inr (.inr ⟨_, _, hw, rfl, rfl⟩)⟩
        | writer w => cases hanswered
        | caller d => cases hanswered
      · exact hsame (task?_setTask_other (Ne.symm hki)) (by simp [Event.place?])
  | fire => exact hsame (task?_fire g _ i) (by simp [Event.place?])
  | outside => exact hsame rfl (by simp [Event.place?])

/-- **What a session keeps in its own moves, and when the store answers, it keeps in every move.** -/
theorem Move.keeps {P : Session → Prop}
    (hown : ∀ {cancelled : Bool} {e : Event} {s s' : Session}, P s →
      Task.Own i cancelled e (.session s) (.session s') → P s')
    (hstored : ∀ {s : Session} (answer : Except Failure Bytes), P s → P (s.stored answer))
    (hm : Move g e g') (h : ∀ s, g.session? i = some s → P s) :
    ∀ s, g'.session? i = some s → P s := by
  intro s' hs'
  obtain ⟨s, hs, ⟨rfl, -⟩ | hmoves | ⟨-, answer, -, -, rfl⟩⟩ := hm.session_cases hs'
  · exact h _ hs
  · exact hown (h s hs) hmoves
  · exact hstored answer (h s hs)

/-- **No move makes a session another.** -/
theorem Move.isOf {peer : Endpoint} {settings : SessionSettings} (hm : Move g e g')
    (h : ∀ s, g.session? i = some s → s.IsOf peer settings) :
    ∀ s, g'.session? i = some s → s.IsOf peer settings :=
  hm.keeps (fun h hown => h.own hown) (fun answer h => h.stored answer) h

/-- A session stays at its place. -/
theorem exists_session_of_run {es : List Event} (hs : ∃ s, g.session? i = some s)
    (hrun : g.run? es = some g') : ∃ s, g'.session? i = some s := by
  refine run_states (P := fun g => ∃ s, g.session? i = some s) ?_ hs hrun
  rintro g g' e ⟨s, hs⟩ hm
  obtain ⟨s', hs', -⟩ := hm.session?_kind hs
  exact ⟨s', hs'⟩

end SharedLog

end EchoLog
