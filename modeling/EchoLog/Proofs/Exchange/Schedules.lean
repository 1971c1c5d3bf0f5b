import EchoLog.Proofs.Exchange.Calls
/-!
# Exchanges without end

A schedule says what is to happen at each moment; what cannot happen is passed over.  So a schedule
plays an exchange on for ever, and together with it what has happened: the chronicle of the log, and the
packets that clients sent (`Recounted.play`).  A schedule is calm if no file step fails in it, and fair if
no agent is left out for ever while it can do something (`Recounted.Fair`).

`Recounted.Gets` is a call that gets its echo, from the moment at which it is made to the moment at which
it returns.  Under a calm schedule a call that is under way stays under way until it returns, and then it
gets its echo (`Under.later`); under a fair one it returns (`Under.comes_back`).
-/

namespace EchoLog

/-- The packet that a client sends with an event. -/
def ExchangeEvent.asked : ExchangeEvent → List (Nat × Bytes)
  | .call i payload => [(i, Client.packetOf payload)]
  | _ => []

/-- An exchange and what has happened in it, each entry of the clients with their link. -/
structure Recounted where
  now : Exchange
  past : Chronicle := {}
  /-- The packets that clients sent, and the portions that they read. -/
  asked : List (Nat × Bytes) := []
  heard : List (Nat × Bytes) := []

/-- What is to happen at each moment. -/
abbrev Schedule := Nat → Option ExchangeEvent

namespace Exchange

/-- Whether nothing is unread and nothing unanswered on a link. -/
def Quiet (x : Exchange) (i : Nat) : Prop :=
  ∃ l s, x.links[i]? = some l ∧ x.log.session? l.seat = some s ∧ AtRest l s

/-- Whether a call with a packet is open on a link. -/
def Awaits (x : Exchange) (i : Nat) (p : Bytes) : Prop :=
  ∃ l received, x.links[i]? = some l ∧ l.call = some ⟨p, received⟩

/-- Whether all that a client sends at once fits the session at the other end. -/
def Admits (x : Exchange) (i : Nat) (p : Bytes) : Prop :=
  ∀ l s, x.links[i]? = some l → x.log.session? l.seat = some s → p.length ≤ s.framer.limit

end Exchange

namespace Recounted

open Exchange

/-- An event, if it can happen. -/
def after (r : Recounted) (e : ExchangeEvent) : Recounted :=
  match r.now.step? e with
  | none => r
  | some x => ⟨x, r.now.recount r.past e x, r.asked ++ e.asked, r.heard ++ r.now.portion e⟩

/-- What a schedule has made of an exchange at each moment. -/
def play (r : Recounted) (σ : Schedule) : Nat → Recounted
  | 0 => r
  | n + 1 =>
    match σ n with
    | none => r.play σ n
    | some e => (r.play σ n).after e

/-- Whether an event happens at a moment. -/
def Happens (r : Recounted) (σ : Schedule) (n : Nat) (e : ExchangeEvent) : Prop :=
  σ n = some e ∧ ∃ x, (r.play σ n).now.step? e = some x

/-- No file step fails. -/
def Calm (r : Recounted) (σ : Schedule) : Prop :=
  ∀ n e, σ n = some e → (r.play σ n).now.isCalm e = true

/-- No agent is left out for ever while it can do something. -/
def Fair (r : Recounted) (σ : Schedule) : Prop :=
  ∀ a n, (∀ m, n ≤ m → (r.play σ m).now.CanAct a) →
    ∃ m e, n ≤ m ∧ r.Happens σ m e ∧ (r.play σ m).now.agent? e = some a

/-- What was committed for the session at the other end of a link. -/
def commitsOf (r : Recounted) (i : Nat) : List Commit :=
  match r.now.links[i]? with
  | none => []
  | some l => share l.seat r.past.commits

/-- A call that was made at a moment `n` returns at a later moment `m`: until then it is open, what it
returns is what the client's loop makes of the portions that the client has read since, and is the log as
of the one commit that was made for it, and then nothing is unread or unanswered. -/
structure Gets (r : Recounted) (σ : Schedule) (n i : Nat) (p : Bytes) (m : Nat) (echo : Bytes) :
    Prop where
  later : n < m
  meanwhile : ∀ j, n < j → j ≤ m → (r.play σ j).now.Awaits i p
  returned : (r.play σ (m + 1)).now.returned = (r.play σ m).now.returned ++ [⟨i, p, echo⟩]
  read : ∃ portions, share i (r.play σ (m + 1)).heard = share i (r.play σ n).heard ++ portions ∧
    ∀ tail, Client.readUntil p ⟨portions, tail⟩ = (.ok echo, ⟨[], tail⟩)
  commit : (r.play σ (m + 1)).commitsOf i = (r.play σ n).commitsOf i ++ [⟨p, echo⟩]
  quiet : (r.play σ (m + 1)).now.Quiet i

/-! ## One moment -/

section Moment

variable {r : Recounted} {σ : Schedule} {n i : Nat}

theorem play_of_happens {e : ExchangeEvent} (h : r.Happens σ n e) :
    ∃ x, (r.play σ n).now.Moves e x ∧ r.play σ (n + 1) =
      ⟨x, (r.play σ n).now.recount (r.play σ n).past e x, (r.play σ n).asked ++ e.asked,
        (r.play σ n).heard ++ (r.play σ n).now.portion e⟩ := by
  obtain ⟨hσ, x, hx⟩ := h
  refine ⟨x, moves_of_step? hx, ?_⟩
  rw [play, hσ]
  simp only [after, hx]

theorem play_of_not_happens (h : ∀ e, ¬ r.Happens σ n e) : r.play σ (n + 1) = r.play σ n := by
  rw [play]
  cases hσ : σ n with
  | none => rfl
  | some e =>
      cases hx : (r.play σ n).now.step? e with
      | none => simp only [after, hx]
      | some x => exact absurd ⟨hσ, x, hx⟩ (h e)

theorem Happens.unique {e e' : ExchangeEvent} (h : r.Happens σ n e) (h' : r.Happens σ n e') :
    e = e' :=
  Option.some.inj (h.1.symm.trans h'.1)

/-- **What every calm event keeps is kept at every moment.** -/
theorem orderly_play (hstart : r.now.Orderly r.past) (hcalm : r.Calm σ) (n : Nat) :
    (r.play σ n).now.Orderly (r.play σ n).past := by
  induction n with
  | zero => exact hstart
  | succ n ih =>
      by_cases h : ∃ e, r.Happens σ n e
      · obtain ⟨e, he⟩ := h
        obtain ⟨x, hmove, hplay⟩ := play_of_happens he
        rw [hplay]
        exact ih.move (hcalm n e he.1) hmove
      · rw [play_of_not_happens (not_exists.1 h)]
        exact ih

end Moment

/-! ## A call that is under way -/

/-- A call that is under way on a link; `heard` is what its client had read before. -/
def Under (r : Recounted) (i : Nat) (p : Bytes) (earlier : List Commit) (heard : List Bytes)
    (rank : ℕ ×ₗ ℕ) (helper : Agent) : Prop :=
  ∃ l s, r.now.links[i]? = some l ∧ r.now.log.session? l.seat = some s ∧
    UnderWay r.now.log r.past i l s p earlier rank helper ∧
    ∃ received portions, share i r.heard = heard ++ portions ∧ Hears l p received portions

/-- The commit that comes next for a session has a packet that ends no line of the log before it. -/
def Unseen (r : Recounted) (σ : Schedule) (i : Nat) (earlier : List Commit) (p : Bytes) : Prop :=
  ∀ m commit, ((r.play σ m).commitsOf i)[earlier.length]? = some commit →
    ∀ line ∈ lines commit.before, ¬ p <:+ line

/-- A call returns at a moment. -/
structure Ends (r r' : Recounted) (i : Nat) (p : Bytes) (earlier : List Commit) (heard : List Bytes)
    (echo : Bytes) : Prop where
  returned : r'.now.returned = r.now.returned ++ [⟨i, p, echo⟩]
  read : ∃ portions, share i r'.heard = heard ++ portions ∧
    ∀ tail, Client.readUntil p ⟨portions, tail⟩ = (.ok echo, ⟨[], tail⟩)
  commit : r'.commitsOf i = earlier ++ [⟨p, echo⟩]
  quiet : r'.now.Quiet i

section Call

variable {r : Recounted} {σ : Schedule} {i n : Nat} {p : Bytes} {earlier : List Commit}
  {heard : List Bytes} {rank : ℕ ×ₗ ℕ} {helper : Agent}

theorem commitsOf_eq {l : Link} (hl : r.now.links[i]? = some l) :
    r.commitsOf i = share l.seat r.past.commits := by
  simp only [commitsOf, hl]

theorem Under.awaits (h : r.Under i p earlier heard rank helper) : r.now.Awaits i p := by
  obtain ⟨l, s, hl, -, h, -⟩ := h
  obtain ⟨received, hcall⟩ := h.call
  exact ⟨l, received, hl, hcall⟩

theorem not_awaits_of_quiet {x : Exchange} (h : x.Quiet i) : ¬ x.Awaits i p := by
  obtain ⟨l, s, hl, -, hrest⟩ := h
  rintro ⟨l', received, hl', hcall⟩
  cases hl.symm.trans hl'
  cases hrest.call.symm.trans hcall

theorem Under.not_call (h : (r.play σ n).Under i p earlier heard rank helper) (payload : Bytes) :
    ¬ r.Happens σ n (.call i payload) := by
  rintro ⟨-, x, hx⟩
  obtain ⟨l, received, hl, hcall⟩ := h.awaits
  cases moves_of_step? hx with
  | call hl' hcall' =>
      cases hl.symm.trans hl'
      cases hcall'.symm.trans hcall
  | plain he => cases he

variable (hstart : r.now.Orderly r.past) (hcalm : r.Calm σ) (hp : IsLine p)
  (hunseen : r.Unseen σ i earlier p)

include hstart hcalm hp hunseen

/-- **One moment of a call that is under way.** -/
theorem Under.next (h : (r.play σ n).Under i p earlier heard rank helper) :
    (∃ rank' helper', (r.play σ (n + 1)).Under i p earlier heard rank' helper' ∧
      (rank' < rank ∨ (rank' = rank ∧ helper' = helper ∧
        ∀ e, r.Happens σ n e → (r.play σ n).now.agent? e ≠ some helper))) ∨
      ∃ echo, (r.play σ n).Ends (r.play σ (n + 1)) i p earlier heard echo := by
  have ho := orderly_play hstart hcalm n
  by_cases hevent : ∃ e, r.Happens σ n e
  · obtain ⟨e, he⟩ := hevent
    obtain ⟨x, hmove, hplay⟩ := play_of_happens he
    obtain ⟨l, s, hl, hs, hunder, received, portions, hportions, hhears⟩ := h
    obtain ⟨l', s', hl', hs', hseat, hturn⟩ := ho.turns hmove hl hs
    have hheard : share i ((r.play σ n).heard ++ (r.play σ n).now.portion e) =
        heard ++ (portions ++ share i ((r.play σ n).now.portion e)) := by
      rw [share_append, hportions, List.append_assoc]
    have hseen := ho.seen (hcalm n e he.1) hmove hs hs'
    have hnew : ∀ m, (share l.seat (r.play σ n).past.commits)[earlier.length]? = some m →
        ∀ line ∈ lines m.before, ¬ p <:+ line := by
      rw [← commitsOf_eq hl]
      exact hunseen n
    rw [← hseat] at hs'
    rw [hplay]
    cases hunder.turn hp hnew hseen hturn with
    | @goesOn rank' helper' hunder' hnearer =>
        obtain ⟨_, hcall⟩ := hunder'.call
        obtain ⟨received', hhears'⟩ := (hhears.turn hl hturn).resolve_right fun hends => by
          cases hends.1.symm.trans hcall
        refine .inl ⟨rank', helper', ⟨l', s', hl', hs', hunder', received', _, hheard, hhears'⟩, ?_⟩
        rcases hnearer with hless | ⟨hrank, hhelper, hagent⟩
        · exact .inl hless
        · refine .inr ⟨hrank, hhelper, ?_⟩
          intro e' he'
          cases he.unique he'
          exact hagent
    | @ends log hreturned hrest hcommits =>
        obtain ⟨-, echo, hecho, hread⟩ := (hhears.turn hl hturn).resolve_left fun ⟨_, hhears'⟩ => by
          cases hhears'.call.symm.trans hrest.call
        cases List.append_cancel_left (hreturned.symm.trans hecho)
        exact .inr ⟨log, hreturned, ⟨_, hheard, hread⟩, (commitsOf_eq hl').trans hcommits, l', s', hl',
          hs', hrest⟩
  · have hevent' := not_exists.1 hevent
    rw [play_of_not_happens hevent']
    exact .inl ⟨rank, helper, h, .inr ⟨rfl, rfl, fun e he => absurd he (hevent' e)⟩⟩

/-- **A call stays under way until it returns.** -/
theorem Under.later (h : (r.play σ n).Under i p earlier heard rank helper) (d : Nat) :
    (∃ rank' helper', (r.play σ (n + d)).Under i p earlier heard rank' helper') ∨
      ∃ m echo, n ≤ m ∧ m < n + d ∧
        (∀ j, n ≤ j → j ≤ m → (r.play σ j).now.Awaits i p) ∧
        (r.play σ m).Ends (r.play σ (m + 1)) i p earlier heard echo := by
  have hall : (∀ j, n ≤ j → j ≤ n + d →
        ∃ rank' helper', (r.play σ j).Under i p earlier heard rank' helper') ∨
      ∃ m echo, n ≤ m ∧ m < n + d ∧
        (∀ j, n ≤ j → j ≤ m → (r.play σ j).now.Awaits i p) ∧
        (r.play σ m).Ends (r.play σ (m + 1)) i p earlier heard echo := by
    induction d with
    | zero =>
        refine .inl ?_
        intro j hj hj'
        cases Nat.le_antisymm hj' hj
        exact ⟨rank, helper, h⟩
    | succ d ih =>
        rcases ih with hunder | ⟨m, echo, hn, hm, hends⟩
        · obtain ⟨rank', helper', hlast⟩ := hunder (n + d) (Nat.le_add_right n d) (Nat.le_refl _)
          rcases hlast.next hstart hcalm hp hunseen with ⟨rank'', helper'', hnext, -⟩ | ⟨echo, hends⟩
          · refine .inl ?_
            intro j hj hj'
            rcases Nat.lt_or_eq_of_le hj' with hlt | rfl
            · exact hunder j hj (Nat.le_of_lt_succ hlt)
            · exact ⟨rank'', helper'', hnext⟩
          · refine .inr ⟨n + d, echo, Nat.le_add_right n d, Nat.lt_succ_self _, ?_, hends⟩
            intro j hj hj'
            obtain ⟨rank', helper', hunder⟩ := hunder j hj hj'
            exact hunder.awaits
        · exact .inr ⟨m, echo, hn, Nat.lt_succ_of_lt hm, hends⟩
  exact hall.imp_left fun hunder => hunder (n + d) (Nat.le_add_right n d) (Nat.le_refl _)

/-- **Under a fair schedule a call that is under way returns.** -/
theorem Under.comes_back (hfair : r.Fair σ) (h : (r.play σ n).Under i p earlier heard rank helper) :
    ∃ m echo, n ≤ m ∧ (r.play σ m).Ends (r.play σ (m + 1)) i p earlier heard echo := by
  by_contra hnever
  have hgoes : ∀ {m : Nat} {rank : ℕ ×ₗ ℕ} {helper : Agent}, n ≤ m →
      (r.play σ m).Under i p earlier heard rank helper →
      ∃ rank' helper', (r.play σ (m + 1)).Under i p earlier heard rank' helper' ∧
        (rank' < rank ∨ (rank' = rank ∧ helper' = helper ∧
          ∀ e, r.Happens σ m e → (r.play σ m).now.agent? e ≠ some helper)) := by
    intro m rank helper hm hunder
    refine (hunder.next hstart hcalm hp hunseen).resolve_right ?_
    rintro ⟨echo, hends⟩
    exact hnever ⟨m, echo, hm, hends⟩
  -- what is left to do cannot get less for ever
  have hnone : ∀ (rank : ℕ ×ₗ ℕ) (helper : Agent) (m : Nat), n ≤ m →
      ¬ (r.play σ m).Under i p earlier heard rank helper := by
    intro rank
    induction rank using WellFoundedLT.induction with
    | _ rank ih =>
        intro helper m hm hunder
        have hstays : ∀ d, (r.play σ (m + d)).Under i p earlier heard rank helper := by
          intro d
          induction d with
          | zero => exact hunder
          | succ d hd =>
              obtain ⟨rank', helper', hnext, hless | ⟨rfl, rfl, -⟩⟩ :=
                hgoes (hm.trans (Nat.le_add_right m d)) hd
              · exact absurd hnext (ih rank' hless helper' (m + d + 1) (by omega))
              · exact hnext
        have hcan : ∀ j, m ≤ j → (r.play σ j).now.CanAct helper := by
          intro j hj
          obtain ⟨d, rfl⟩ := Nat.exists_eq_add_of_le hj
          obtain ⟨l, s, hl, hs, hunder, -⟩ := hstays d
          exact hunder.canAct hp (orderly_play hstart hcalm _) hl hs
        obtain ⟨j, e, hj, he, hagent⟩ := hfair helper m hcan
        obtain ⟨d, rfl⟩ := Nat.exists_eq_add_of_le hj
        obtain ⟨rank', helper', hnext, hless | ⟨-, -, hidle⟩⟩ :=
          hgoes (hm.trans hj) (hstays d)
        · exact ih rank' hless helper' (m + d + 1) (by omega) hnext
        · exact hidle e he hagent
  exact hnone rank helper n (Nat.le_refl n) h

end Call

/-! ## Schedules that come to an end -/

theorem play_of_finished {r : Recounted} {σ : Schedule} {n : Nat} (hend : ∀ m, n ≤ m → σ m = none)
    (m : Nat) : r.play σ m = r.play σ (min m n) := by
  induction m with
  | zero => rw [Nat.zero_min]
  | succ m ih =>
      rcases Nat.lt_or_ge m n with hlt | hge
      · rw [Nat.min_eq_left hlt]
      · rw [Nat.min_eq_right hge] at ih
        rw [Nat.min_eq_right (Nat.le_succ_of_le hge), play, hend m hge, ih]

end Recounted

/-- Whether a task wants nothing of the store, and waits for bytes if it is a session. -/
def Task.rests (t : Task) : Bool :=
  t.request?.isNone &&
    match t with
    | .session s =>
      match s.stage with
      | .receiving => true
      | _ => false
    | _ => true

namespace Exchange

/-- Whether nothing is on its way and nobody has anything to do. -/
def rests (x : Exchange) : Bool :=
  x.links.all (fun l => l.toSession.isEmpty && l.toClient.isEmpty) &&
    x.log.seats.all (·.task.rests) && x.log.holder.isNone && x.log.waiting.isEmpty

/-- **Where everything rests no agent can do anything.** -/
theorem not_canAct_of_rests {x : Exchange} (h : x.rests = true) (a : Agent) : ¬ x.CanAct a := by
  simp only [rests, Bool.and_eq_true, List.all_eq_true, List.isEmpty_iff, Option.isNone_iff_eq_none] at h
  obtain ⟨⟨⟨hlinks, hseats⟩, hholder⟩, hwaiting⟩ := h
  have htasks : ∀ {k : Nat} {t : Task}, x.log.task? k = some t → t.rests = true := by
    intro k t ht
    obtain ⟨seat, hseat, rfl⟩ := Option.map_eq_some_iff.1 ht
    exact hseats seat (List.mem_of_getElem? hseat)
  have hstage : ∀ {k : Nat} {s : Session}, x.log.session? k = some s → s.stage = .receiving := by
    intro k s hs
    have hrests := htasks (SharedLog.session?_eq_some.1 hs)
    cases hs' : s.stage <;> simp_all [Task.rests]
  rintro ⟨e, hagent, x', hx⟩
  cases moves_of_step? hx with
  | call => cases hagent
  | deliver hl _ hpos hsize =>
      rw [(hlinks _ (List.mem_of_getElem? hl)).1, List.length_nil] at hsize
      omega
  | send _ hs hsending => cases (hstage hs).symm.trans hsending
  | flush hl hg =>
      cases SharedLog.move_of_step? hg with
      | own _ ht hown =>
          cases hown with
          | flush hflushing =>
              cases (hstage (SharedLog.session?_eq_some.2 ht)).symm.trans hflushing
  | read hl _ hpos hsize =>
      rw [(hlinks _ (List.mem_of_getElem? hl)).2, List.length_nil] at hsize
      omega
  | @plain _ inner g he hg =>
      cases SharedLog.move_of_step? hg with
      | own _ ht hown =>
          cases hown with
          | frame hframing => cases (hstage (SharedLog.session?_eq_some.2 ht)).symm.trans hframing
          | tick => cases e <;> cases he; cases hagent
          | _ => cases e <;> cases he
      | ask hr =>
          obtain ⟨t, ht, hreq⟩ := Option.bind_eq_some_iff.1 hr
          have hrests := htasks ht
          unfold Task.rests at hrests
          rw [hreq] at hrests
          cases hrests
      | grant _ hw => cases hwaiting.symm.trans hw
      | file hw => cases hholder.symm.trans hw
      | release hw => cases hholder.symm.trans hw
      | fire => cases e <;> cases he
      | outside => cases e <;> cases he

end Exchange

/-- A schedule that comes to an end where everything rests is fair. -/
theorem Recounted.fair_of_rests {r : Recounted} {σ : Schedule} {n : Nat}
    (hend : ∀ m, n ≤ m → σ m = none) (hrests : (r.play σ n).now.rests = true) : r.Fair σ := by
  intro a k hcan
  refine absurd (hcan (max k n) (Nat.le_max_left k n)) ?_
  rw [play_of_finished hend, Nat.min_eq_right (Nat.le_max_right k n)]
  exact Exchange.not_canAct_of_rests hrests a

end EchoLog
