import EchoLog.Exchange.Basic
import EchoLog.Proofs.Session.Identity
import EchoLog.Proofs.SharedLog.Linear
import EchoLog.Proofs.SharedLog.Turns
/-!
# The moves of an exchange

An exchange is a log with its tasks, and links with clients at their other ends.  What happens on the
side of the log is an event of the log (`Exchange.inner?`), so a chronicle of the log goes along with an
exchange (`Exchange.recount`), and what the theory of the log keeps is kept here too (`Orderly.move`):
nobody is refused anything and nobody's token fires.  `Exchange.Moves` says as a relation what each event
does to the links.
-/

namespace EchoLog

/-- The event of the log that an event of an exchange is, where it is nothing else. -/
def ExchangeEvent.plain? : ExchangeEvent → Option Event
  | .frame seat => some (.frame seat)
  | .ask seat => some (.ask seat)
  | .grant => some .grant
  | .file => some (.file none)
  | .release => some .release
  | .tick seat now time => some (.tick seat now time)
  | _ => none

namespace Exchange

/-- The event of the log that an event of an exchange is, if it is one. -/
def inner? (x : Exchange) : ExchangeEvent → Option Event
  | .call _ _ => none
  | .read _ _ => none
  | .deliver i size => x.links[i]?.map fun l => .receive l.seat (.ok (l.toSession.take size))
  | .send i size => x.links[i]?.map fun l => .send l.seat (.ok size)
  | .flush i => x.links[i]?.map fun l => .flush l.seat (.ok ())
  | e => e.plain?

/-- Whether no file step fails in an event. -/
def isCalm (x : Exchange) (e : ExchangeEvent) : Bool :=
  (x.inner? e).all x.log.isCalm

/-- Every way in which an event changes an exchange. -/
inductive Moves (x : Exchange) : ExchangeEvent → Exchange → Prop where
  | call {i : Nat} {payload : Bytes} {l : Link} : x.links[i]? = some l → l.call = none →
      Moves x (.call i payload) (x.setLink i { l with
        toSession := l.toSession ++ Client.packetOf payload
        call := some { packet := Client.packetOf payload } })
  | deliver {i size : Nat} {l : Link} {s : Session} {g : SharedLog} : x.links[i]? = some l →
      x.log.session? l.seat = some s → 0 < size → size ≤ l.toSession.length →
      x.log.step? (.receive l.seat (.ok (l.toSession.take size))) = some g →
      Moves x (.deliver i size)
        ({ x with log := g }.setLink i { l with toSession := l.toSession.drop size })
  | send {i size : Nat} {l : Link} {s : Session} {left : Bytes} {g : SharedLog} :
      x.links[i]? = some l → x.log.session? l.seat = some s → s.stage = .echoing left → 0 < size →
      size ≤ left.length → x.log.step? (.send l.seat (.ok size)) = some g →
      Moves x (.send i size)
        ({ x with log := g }.setLink i { l with toClient := l.toClient ++ left.take size })
  | flush {i : Nat} {l : Link} {g : SharedLog} : x.links[i]? = some l →
      x.log.step? (.flush l.seat (.ok ())) = some g → Moves x (.flush i) { x with log := g }
  | read {i size : Nat} {l : Link} {c : OpenCall} : x.links[i]? = some l → l.call = some c →
      0 < size → size ≤ l.toClient.length →
      Moves x (.read i size)
        (x.afterRead i { l with toClient := l.toClient.drop size } c (l.toClient.take size))
  | plain {e : ExchangeEvent} {inner : Event} {g : SharedLog} : e.plain? = some inner →
      x.log.step? inner = some g → Moves x e { x with log := g }

theorem withLog_eq_some {x x' : Exchange} {inner : Event} (h : x.withLog inner = some x') :
    ∃ g, x.log.step? inner = some g ∧ x' = { x with log := g } := by
  obtain ⟨g, hg, rfl⟩ := Option.map_eq_some_iff.1 h
  exact ⟨g, hg, rfl⟩

/-- **Every step is such a move.** -/
theorem moves_of_step? {x x' : Exchange} {e : ExchangeEvent} (h : x.step? e = some x') :
    x.Moves e x' := by
  cases e with
  | call i payload =>
      simp only [step?, bind, Option.bind_eq_some_iff] at h
      obtain ⟨l, hl, h⟩ := h
      split at h
      · cases h
      · rename_i hcall
        cases h
        exact .call hl (by simpa using hcall)
  | deliver i size =>
      simp only [step?, bind, Option.bind_eq_some_iff] at h
      obtain ⟨l, hl, s, hs, h⟩ := h
      split at h
      · rename_i hsize
        simp only [Bool.and_eq_true, decide_eq_true_eq] at hsize
        obtain ⟨y, hy, h⟩ := Option.bind_eq_some_iff.1 h
        obtain ⟨g, hg, rfl⟩ := withLog_eq_some hy
        cases h
        exact .deliver hl hs hsize.1.1 hsize.2 hg
      · cases h
  | send i size =>
      simp only [step?, bind, Option.bind_eq_some_iff] at h
      obtain ⟨l, hl, s, hs, h⟩ := h
      split at h
      · rename_i left hstage
        split at h
        · rename_i hsize
          simp only [Bool.and_eq_true, decide_eq_true_eq] at hsize
          obtain ⟨y, hy, h⟩ := Option.bind_eq_some_iff.1 h
          obtain ⟨g, hg, rfl⟩ := withLog_eq_some hy
          cases h
          exact .send hl hs hstage hsize.1 hsize.2 hg
        · cases h
      · cases h
  | flush i =>
      simp only [step?, bind, Option.bind_eq_some_iff] at h
      obtain ⟨l, hl, h⟩ := h
      obtain ⟨g, hg, rfl⟩ := withLog_eq_some h
      exact .flush hl hg
  | read i size =>
      simp only [step?, bind, Option.bind_eq_some_iff] at h
      obtain ⟨l, hl, c, hc, h⟩ := h
      split at h
      · rename_i hsize
        simp only [Bool.and_eq_true, decide_eq_true_eq] at hsize
        cases h
        exact .read hl hc hsize.1 hsize.2
      · cases h
  | frame seat =>
      obtain ⟨g, hg, rfl⟩ := withLog_eq_some h
      exact .plain rfl hg
  | ask seat =>
      obtain ⟨g, hg, rfl⟩ := withLog_eq_some h
      exact .plain rfl hg
  | grant =>
      obtain ⟨g, hg, rfl⟩ := withLog_eq_some h
      exact .plain rfl hg
  | file =>
      obtain ⟨g, hg, rfl⟩ := withLog_eq_some h
      exact .plain rfl hg
  | release =>
      obtain ⟨g, hg, rfl⟩ := withLog_eq_some h
      exact .plain rfl hg
  | tick seat now time =>
      obtain ⟨g, hg, rfl⟩ := withLog_eq_some h
      exact .plain rfl hg

theorem log_afterRead (x : Exchange) (i : Nat) (l : Link) (c : OpenCall) (portion : Bytes) :
    (x.afterRead i l c portion).log = x.log := by
  simp only [afterRead]
  split <;> rfl

/-- On the side of the log an event is a move of the log, and none of another process or of a token; or
nothing happens there. -/
theorem Moves.inner {x x' : Exchange} {e : ExchangeEvent} (hm : x.Moves e x') :
    (x.inner? e = none ∧ x'.log = x.log) ∨
      ∃ inner, x.inner? e = some inner ∧ x.log.Move inner x'.log ∧
        (∀ j, inner ≠ .fire j) ∧ ∀ change, inner ≠ .outside change := by
  cases hm with
  | call => exact .inl ⟨rfl, rfl⟩
  | deliver hl _ _ _ hg =>
      exact .inr ⟨_, by rw [inner?, hl]; rfl, SharedLog.move_of_step? hg, nofun, nofun⟩
  | send hl _ _ _ _ hg =>
      exact .inr ⟨_, by rw [inner?, hl]; rfl, SharedLog.move_of_step? hg, nofun, nofun⟩
  | flush hl hg =>
      exact .inr ⟨_, by rw [inner?, hl]; rfl, SharedLog.move_of_step? hg, nofun, nofun⟩
  | read => exact .inl ⟨rfl, log_afterRead ..⟩
  | @plain e inner g he hg =>
      refine .inr ⟨inner, ?_, SharedLog.move_of_step? hg, ?_, ?_⟩
      · cases e <;> first | exact he | cases he
      · cases e <;> cases he <;> nofun
      · cases e <;> cases he <;> nofun

/-- What an event adds to the chronicle of the log. -/
def recount (x : Exchange) (c : Chronicle) (e : ExchangeEvent) (x' : Exchange) : Chronicle :=
  match x.inner? e with
  | none => c
  | some inner => c.note x.log inner x'.log

theorem seats_set {x : Exchange} {i : Nat} {l l' : Link} (hl : x.links[i]? = some l)
    (hseat : l'.seat = l.seat) : (x.links.set i l').map (·.seat) = x.links.map (·.seat) := by
  refine List.ext_getElem? ?_
  intro j
  simp only [List.getElem?_map, List.getElem?_set]
  by_cases hij : i = j
  · subst hij
    have hlt := (List.getElem?_eq_some_iff.1 hl).1
    rw [if_pos rfl, if_pos hlt, hl, Option.map_some, Option.map_some, hseat]
  · rw [if_neg hij]

theorem Moves.seats {x x' : Exchange} {e : ExchangeEvent} (hm : x.Moves e x') :
    x'.links.map (·.seat) = x.links.map (·.seat) := by
  cases hm with
  | call hl _ => exact seats_set hl rfl
  | deliver hl _ _ _ _ => exact seats_set hl rfl
  | send hl _ _ _ _ _ => exact seats_set hl rfl
  | flush => rfl
  | read hl _ _ _ =>
      simp only [afterRead]
      split <;> exact seats_set hl rfl
  | plain => rfl

end Exchange

/-! ## What is kept -/

namespace SharedLog

variable {g g' : SharedLog} {e : Event} {i : Nat}

theorem Move.roomy (hm : Move g e g')
    (h : ∀ s, g.session? i = some s → 0 < s.readSize) :
    ∀ s, g'.session? i = some s → 0 < s.readSize := by
  refine hm.keeps ?_ ?_ h
  · intro cancelled e s s' hsize hown
    rwa [(Session.same_own hown).2]
  · intro s answer hsize
    cases answer <;> exact hsize

end SharedLog

namespace Exchange

/-- What is kept along every run of an exchange in which no file step fails. -/
structure Orderly (x : Exchange) (c : Chronicle) : Prop where
  steady : x.log.Steady c
  serene : x.log.Serene
  uncancelled : ∀ i, x.log.isCancelled i = false
  roomy : ∀ i s, x.log.session? i = some s → 0 < s.readSize
  apart : (x.links.map (·.seat)).Nodup
  seated : ∀ k ∈ x.links.map (·.seat), ∃ s, x.log.session? k = some s

variable {x x' : Exchange} {c : Chronicle} {e : ExchangeEvent}

/-- **Every event in which no file step fails keeps this.** -/
theorem Orderly.move (h : x.Orderly c) (hcalm : x.isCalm e = true) (hm : x.Moves e x') :
    x'.Orderly (x.recount c e x') := by
  rcases hm.inner with ⟨hnone, hlog⟩ | ⟨inner, hinner, hmove, hfire, -⟩
  · rw [recount, hnone]
    refine ⟨?_, ?_, ?_, ?_, ?_, ?_⟩
    · rw [hlog]
      exact h.steady
    · rw [hlog]
      exact h.serene
    · rw [hlog]
      exact h.uncancelled
    · rw [hlog]
      exact h.roomy
    · rw [hm.seats]
      exact h.apart
    · rw [hm.seats, hlog]
      exact h.seated
  · rw [isCalm, hinner, Option.all_some] at hcalm
    rw [recount, hinner]
    refine ⟨h.steady.move (SharedLog.isUndisturbed_of_isCalm hcalm) hmove, h.serene.move (SharedLog.isFlawless_of_isCalm hcalm) hmove,
      ?_, fun i => hmove.roomy (h.roomy i), ?_, ?_⟩
    · intro i
      rw [hmove.isCancelled_eq hfire]
      exact h.uncancelled i
    · rw [hm.seats]
      exact h.apart
    · rw [hm.seats]
      intro k hk
      obtain ⟨s, hs⟩ := h.seated k hk
      obtain ⟨s', hs', -⟩ := hmove.session?_kind hs
      exact ⟨s', hs'⟩

end Exchange

end EchoLog
