import EchoLog.Proofs.Exchange.Connection
import EchoLog.Proofs.Framing.Look
import Mathlib.Data.Prod.Lex
/-!
# The phases of a call

A client knows the end of an echo by its packet only, so everything hangs on one fact about byte strings
(`not_suffix_of_prefix`): if no line of the log ends with a packet, then nothing that comes before the
end of the log and that packet ends with the packet.

Between a call and its return the connection goes through three phases: the packet travels to the session
(`Travels`), it is stored (`Stores`), and the log travels back (`Returns`).  For each there is one theorem
on what a turn of the connection does in it.  `UnderWay` is the three of them, with what is left to do and
the agent that has to do the next of it; `Outcome` is what can come of a turn.

On the side of the client a call is a loop that reads portions (`Hears`).
-/

namespace EchoLog

/-! ## Packets and the ends of echoes -/

theorem Client.isLine_packetOf {payload : Bytes} (h : newline ∉ payload.dropLast) :
    IsLine (Client.packetOf payload) := by
  unfold packetOf
  split
  · rename_i hlast
    exact ⟨payload.dropLast, h, (List.dropLast_append_getLast? newline hlast).symm⟩
  · rename_i hlast
    refine ⟨payload, ?_, rfl⟩
    rcases List.eq_nil_or_concat payload with rfl | ⟨front, b, rfl⟩
    · exact List.not_mem_nil
    · rw [List.concat_eq_append] at h hlast ⊢
      rw [List.dropLast_concat] at h
      rw [List.getLast?_concat, Option.some.injEq] at hlast
      simp only [List.mem_append, List.mem_singleton, not_or]
      exact ⟨h, fun hb => hlast hb.symm⟩

/-- A line that ends somewhere in a stream ends a line of the stream. -/
theorem exists_line_of_infix {p : Bytes} (hp : IsLine p) (front rest : Bytes) :
    ∃ l ∈ lines (front ++ p ++ rest), p <:+ l := by
  obtain ⟨body, hbody, rfl⟩ := hp
  have hline : IsLine (unfinished front ++ (body ++ [newline])) := by
    refine ⟨unfinished front ++ body, ?_, (List.append_assoc ..).symm⟩
    rw [List.mem_append, not_or]
    exact ⟨newline_not_mem_unfinished front, hbody⟩
  refine ⟨unfinished front ++ (body ++ [newline]), ?_, List.suffix_append _ _⟩
  rw [List.append_assoc, lines_append, ← List.append_assoc, lines_line hline]
  exact List.mem_append_right _ List.mem_cons_self

/-- **Nothing that a client receives before the end of its echo ends with its packet**, if no line of the
log before the packet does. -/
theorem not_suffix_of_prefix {p before received : Bytes} (hp : IsLine p)
    (hnew : ∀ l ∈ lines before, ¬ p <:+ l) (hpre : received <+: before ++ p)
    (hne : received ≠ before ++ p) : ¬ p <:+ received := by
  rintro ⟨front, rfl⟩
  rcases List.prefix_or_prefix_of_prefix hpre (List.prefix_append before p) with hin | ⟨q, hq⟩
  · obtain ⟨rest, rfl⟩ := hin
    obtain ⟨l, hl, hend⟩ := exists_line_of_infix hp front rest
    exact hnew l hl hend
  · obtain ⟨body, hbody, rfl⟩ := hp
    rw [← hq, List.prefix_append_right_inj, List.prefix_concat_iff] at hpre
    rcases hpre with rfl | hqbody
    · exact hne hq.symm
    · rcases List.eq_nil_or_concat q with rfl | ⟨q, b, rfl⟩
      · rw [List.append_nil] at hq
        obtain ⟨l, hl, hend⟩ := exists_line_of_infix ⟨body, hbody, rfl⟩ front []
        rw [List.append_nil, ← hq] at hl
        exact hnew l hl hend
      · -- the last byte of what was received is a newline, and the packet has none but its last
        rw [List.concat_eq_append, ← List.append_assoc, ← List.append_assoc] at hq
        have hb : b = newline := (List.append_inj' hq rfl).2 |> List.singleton_inj.1
        rw [List.concat_eq_append, hb] at hqbody
        exact hbody (hqbody.subset (List.mem_append_right _ (List.mem_singleton.2 rfl)))

/-! ## Sessions -/

namespace Session

/-- Whether a session is between two packets or receives one. -/
def IsIdle (s : Session) : Prop :=
  s.stage = .receiving ∨ s.stage = .framing ∨ s.stage = .flushing

/-- What a session has to do before it waits for bytes, sending counted double: a byte that is sent is
still to be read. -/
def pace (s : Session) : Nat :=
  match s.stage with
  | .echoing left => 2 * left.length + 3
  | .flushing => 2
  | .framing => 1
  | _ => 0

/-- What a session has left to send. -/
inductive Sends (s : Session) : Bytes → Prop where
  | echoing {left : Bytes} : s.stage = .echoing left → left ≠ [] → Sends s left
  | idle : s.IsIdle → Sends s []

variable {s : Session}

theorem IsIdle.request?_eq_none (h : s.IsIdle) : (Task.session s).request? = none := by
  rcases h with h | h | h <;> simp only [Task.request?, h]

theorem Sends.request?_eq_none {left : Bytes} (h : s.Sends left) :
    (Task.session s).request? = none := by
  cases h with
  | echoing h => simp only [Task.request?, h]
  | idle h => exact h.request?_eq_none

theorem Sends.left_eq_nil {left : Bytes} (h : s.Sends left) (hstage : s.IsIdle) : left = [] := by
  cases h with
  | echoing h => rcases hstage with e | e | e <;> cases e.symm.trans h
  | idle => rfl

theorem Sends.left_eq {left left' : Bytes} (h : s.Sends left) (hstage : s.stage = .echoing left') :
    left = left' := by
  cases h with
  | echoing h => exact Stage.echoing.inj (h.symm.trans hstage)
  | idle h => rcases h with e | e | e <;> cases e.symm.trans hstage

theorem sends_echo (s : Session) (left : Bytes) :
    (s.echo left).Sends left ∧ (s.echo left).pace ≤ 2 * left.length + 3 := by
  cases left with
  | nil => exact ⟨.idle (.inr (.inr rfl)), by simp [pace, echo]⟩
  | cons b left => exact ⟨.echoing rfl (List.cons_ne_nil b left), Nat.le_refl _⟩

theorem receive_of_ne_nil (s : Session) {chunk : Bytes} (h : chunk ≠ []) :
    s.receive (.ok chunk) =
      { s with held := s.held ++ chunk, stage := .framing, polling := false } := by
  cases chunk with
  | nil => exact absurd rfl h
  | cons b chunk => rfl

theorem sent_of_pos (s : Session) (left : Bytes) {n : Nat} (h : 0 < n) :
    s.sent left (.ok n) = s.echo (left.drop n) := by
  cases n with
  | zero => cases h
  | succ n => rfl

end Session

namespace Exchange

variable {x x' : Exchange} {c c' : Chronicle} {e : ExchangeEvent} {i : Nat} {l l' : Link}
  {s s' : Session} {p : Bytes} {earlier : List Commit}

/-! ## Rest -/

/-- A connection on which nothing is unread and nothing unanswered. -/
structure AtRest (l : Link) (s : Session) : Prop where
  toSession : l.toSession = []
  toClient : l.toClient = []
  call : l.call = none
  idle : s.IsIdle
  held : s.held = []

/-! ## What a client has read -/

/-- The portion that a client reads in an event. -/
def portion (x : Exchange) : ExchangeEvent → List (Nat × Bytes)
  | .read i size => x.links[i]?.toList.map fun l => (i, l.toClient.take size)
  | _ => []

theorem portion_of_passesBy (h : PassesBy x i l e x') : share i (x.portion e) = [] := by
  cases e with
  | read j size =>
      have hji : j ≠ i := by
        rintro rfl
        exact h.client rfl
      simp only [portion]
      cases x.links[j]? with
      | none => rfl
      | some m => exact share_other hji [m.toClient.take size]
  | _ => rfl

theorem portion_read (hl : x.links[i]? = some l) (size : Nat) :
    share i (x.portion (.read i size)) = [l.toClient.take size] := by
  rw [portion, hl]
  exact share_self i [l.toClient.take size]

/-- The loop of a client that waits for an echo has read some portions, and goes on. -/
structure Hears (l : Link) (p received : Bytes) (portions : List Bytes) : Prop where
  call : l.call = some ⟨p, received⟩
  unended : endsWith received p = false
  loop : ∀ more tail,
    Client.readOn p [] (portions ++ more) tail = Client.readOn p received more tail

theorem hears_start (hp : IsLine p) (hcall : l.call = some { packet := p }) : Hears l p [] [] := by
  refine ⟨hcall, ?_, fun _ _ => rfl⟩
  obtain ⟨body, -, rfl⟩ := hp
  rw [endsWith, Bool.eq_false_iff, ne_eq, List.isSuffixOf_iff_suffix, List.suffix_nil]
  simp

/-- One portion more. -/
theorem Hears.read {received : Bytes} {portions : List Bytes} (h : Hears l p received portions)
    (bytes : Bytes) (more : List Bytes) (tail : Client.Tail) :
    Client.readOn p [] (portions ++ [bytes] ++ more) tail =
      Client.readOn p (received ++ bytes) more tail := by
  rw [List.append_assoc, h.loop, List.singleton_append, Client.readOn, h.unended]
  rfl

/-- **A call is its client's loop**: it goes on as long as the loop does, and returns what the loop makes
of the portions that the client has read. -/
theorem Hears.turn {received : Bytes} {portions : List Bytes} (h : Hears l p received portions)
    (hl : x.links[i]? = some l) (hturn : x.Turn i l s x' e l' s') :
    (∃ received', Hears l' p received' (portions ++ share i (x.portion e))) ∨
      (l'.call = none ∧ ∃ echo, x'.returned = x.returned ++ [⟨i, p, echo⟩] ∧ ∀ tail,
        Client.readUntil p ⟨portions ++ share i (x.portion e), tail⟩ = (.ok echo, ⟨[], tail⟩)) := by
  have hsame : ∀ {m : Link}, share i (x.portion e) = [] → m.call = l.call →
      ∃ received', Hears m p received' (portions ++ share i (x.portion e)) := by
    intro m hnone hm
    rw [hnone, List.append_nil]
    exact ⟨received, hm.trans h.call, h.unended, h.loop⟩
  cases hturn with
  | called hcall => cases hcall.symm.trans h.call
  | delivered => exact .inl (hsame rfl rfl)
  | framed => exact .inl (hsame rfl rfl)
  | sent => exact .inl (hsame rfl rfl)
  | flushed => exact .inl (hsame rfl rfl)
  | answered => exact .inl (hsame rfl rfl)
  | aside hpass => exact .inl (hsame (portion_of_passesBy hpass) rfl)
  | @heard size o hcall _ _ hends =>
      cases hcall.symm.trans h.call
      rw [portion_read hl size]
      exact .inl ⟨_, rfl, hends, h.read (l.toClient.take size)⟩
  | @returned size o hcall _ _ hends hreturned =>
      cases hcall.symm.trans h.call
      rw [portion_read hl size]
      refine .inr ⟨rfl, _, hreturned, ?_⟩
      intro tail
      have hread := h.read (l.toClient.take size) [] tail
      rw [List.append_nil] at hread
      rw [Client.readUntil, hread, Client.readOn, hends]
      rfl

/-! ## The phases of a call -/

/-- The packet of a call travels to the session; `earlier` was committed for the session before. -/
structure Travels (c : Chronicle) (l : Link) (s : Session) (p : Bytes) (earlier : List Commit) :
    Prop where
  idle : s.IsIdle
  packet : s.held ++ l.toSession = p
  limit : p.length ≤ s.framer.limit
  toClient : l.toClient = []
  call : l.call = some { packet := p }
  commits : share l.seat c.commits = earlier

/-- The packet of a call is being stored. -/
structure Stores (c : Chronicle) (l : Link) (s : Session) (p : Bytes) (earlier : List Commit) :
    Prop where
  stage : s.stage = .storing p
  held : s.held = []
  toSession : l.toSession = []
  toClient : l.toClient = []
  call : l.call = some { packet := p }
  commits : earlier <+: share l.seat c.commits
  offered : share l.seat c.offered = earlier.map (·.bytes) ++ [p]

/-- The log as of the commit of the packet travels to the client. -/
structure Returns (c : Chronicle) (l : Link) (s : Session) (p : Bytes) (earlier : List Commit)
    (received left log : Bytes) : Prop where
  sends : s.Sends left
  held : s.held = []
  toSession : l.toSession = []
  call : l.call = some ⟨p, received⟩
  echo : received ++ (l.toClient ++ left) = log
  more : l.toClient ++ left ≠ []
  commits : share l.seat c.commits = earlier ++ [⟨p, log⟩]

/-- A call that has not returned, with what is left to do for it and the agent that has to do the next
of it. -/
inductive UnderWay (g : SharedLog) (c : Chronicle) (i : Nat) (l : Link) (s : Session) (p : Bytes)
    (earlier : List Commit) : ℕ ×ₗ ℕ → Agent → Prop where
  | travelling : Travels c l s p earlier →
      UnderWay g c i l s p earlier (toLex (3, 2 * l.toSession.length + s.pace)) (.task l.seat)
  | asking : Stores c l s p earlier → g.isQueued l.seat = false →
      UnderWay g c i l s p earlier (toLex (2, 0)) (.task l.seat)
  | waiting : Stores c l s p earlier → g.isQueued l.seat = true →
      UnderWay g c i l s p earlier (toLex (1, g.turnsLeft l.seat)) .lock
  | returning {received left log : Bytes} : Returns c l s p earlier received left log →
      UnderWay g c i l s p earlier (toLex (0, l.toClient.length + s.pace))
        (if l.toClient = [] then .task l.seat else .client i)

/-- What a turn does to a call: it takes it on, or leaves it as it is and is not up to the agent that has
to take it on; or the call returns. -/
inductive Outcome (x : Exchange) (e : ExchangeEvent) (x' : Exchange) (c' : Chronicle) (i : Nat)
    (l' : Link) (s' : Session) (p : Bytes) (earlier : List Commit) (rank : ℕ ×ₗ ℕ) (helper : Agent) :
    Prop where
  | goesOn {rank' : ℕ ×ₗ ℕ} {helper' : Agent} :
      UnderWay x'.log c' i l' s' p earlier rank' helper' →
      rank' < rank ∨ (rank' = rank ∧ helper' = helper ∧ x.agent? e ≠ some helper) →
      Outcome x e x' c' i l' s' p earlier rank helper
  | ends {log : Bytes} : x'.returned = x.returned ++ [⟨i, p, log⟩] → AtRest l' s' →
      share l'.seat c'.commits = earlier ++ [⟨p, log⟩] →
      Outcome x e x' c' i l' s' p earlier rank helper

/-! ## Turns -/

/-- A move of an exchange, for the session at a seat. -/
structure Seen (x : Exchange) (c : Chronicle) (e : ExchangeEvent) (x' : Exchange) (seat : Nat)
    (s s' : Session) : Prop where
  before : x.Orderly c
  after : x'.Orderly (x.recount c e x')
  session : x.log.session? seat = some s
  session' : x'.log.session? seat = some s'
  books : SharedLog.Books seat (.session s) (.session s') c (x.recount c e x')

theorem Orderly.seen (h : x.Orderly c) (hcalm : x.isCalm e = true) (hm : x.Moves e x') {seat : Nat}
    (hs : x.log.session? seat = some s) (hs' : x'.log.session? seat = some s') :
    Seen x c e x' seat s s' :=
  ⟨h, h.move hcalm hm, hs, hs', h.books hm hs hs'⟩

section Free

variable {k : Nat} (h : x.Orderly c) (hs : x.log.session? k = some s)
  (hfree : (Task.session s).request? = none)

include hs hfree in
theorem request?_of_free : x.log.request? k = none := by
  rw [SharedLog.request?, SharedLog.session?_eq_some.1 hs, Option.bind_some, hfree]

include h hs hfree

theorem Orderly.not_queued : x.log.isQueued k = false := by
  have hnone := request?_of_free hs hfree
  refine SharedLog.isQueued_eq_false.2 ⟨?_, ?_⟩
  · intro w hw
    obtain ⟨r, hr, -⟩ := h.steady.queue.holder k w hw
    rw [hnone] at hr
    cases hr
  · intro hmem
    obtain ⟨⟨k', r⟩, hp, rfl⟩ := List.mem_map.1 hmem
    have hr := h.steady.queue.waiting _ hp
    rw [hnone] at hr
    cases hr

/-- All that it had ready is committed. -/
theorem Orderly.offered_eq : share k c.offered = c.landed k := by
  obtain ⟨rest, hrest, hor⟩ := h.steady.balanced k
  rw [hrest, hor.resolve_left (h.serene k),
    SharedLog.owed_of_request?_none (request?_of_free hs hfree), List.append_nil]

/-- It has got the logs of all that was committed for it. -/
theorem Orderly.logs_eq : c.logs k = share k c.returned := by
  obtain ⟨rest, hrest, hor⟩ := h.steady.echoed k _ (SharedLog.session?_eq_some.1 hs) rfl
  have hlanded : x.log.hasLanded k = false :=
    SharedLog.hasLanded_of_holder_ne (SharedLog.isQueued_eq_false.1 (h.not_queued hs hfree)).1
  rw [hrest, hor.resolve_left (h.serene k), SharedLog.due_of_not_landed hlanded, List.append_nil]

/-- An event that passes a session by that asks for nothing is not up to it. -/
theorem PassesBy.not_task {y : Exchange} (hpass : PassesBy y i l e x) (hseat : l.seat = k) :
    y.agent? e ≠ some (.task l.seat) := by
  intro htask
  have hqueued := (hpass.task htask).2
  rw [hseat, h.not_queued hs hfree] at hqueued
  cases hqueued

end Free

theorem frame_open (s : Session) (hopen : newline ∉ s.held) (hlimit : s.held.length ≤ s.framer.limit) :
    s.frame = { s with framer := { s.framer with searched := s.held.length }, stage := .receiving } := by
  rw [Session.frame, Framer.look_open hopen hlimit]

theorem frame_line (s : Session) (htracks : s.framer.Tracks s.held) (hline : IsLine s.held)
    (hlimit : s.held.length ≤ s.framer.limit) :
    s.frame = { s with framer := s.framer.rewind, held := [], stage := .storing s.held } := by
  have hlook : s.framer.look (s.held ++ []) =
      ⟨.packet s.held, s.framer.rewind, s.framer.remainder.kept []⟩ :=
    Framer.look_line (by rwa [List.append_nil]) hline hlimit
  rw [List.append_nil] at hlook
  rw [Session.frame, hlook]
  cases s.framer.remainder <;> rfl

/-! ### The packet travels -/

theorem Stores.underWay (h : Stores c l s p earlier) (g : SharedLog) (i : Nat) :
    ∃ rank helper, UnderWay g c i l s p earlier rank helper ∧ rank < toLex (3, 0) := by
  have hone : 1 < 3 := by decide
  have htwo : 2 < 3 := by decide
  cases hqueued : g.isQueued l.seat with
  | true => exact ⟨_, _, .waiting h hqueued, Prod.Lex.toLex_lt_toLex.2 (.inl hone)⟩
  | false => exact ⟨_, _, .asking h hqueued, Prod.Lex.toLex_lt_toLex.2 (.inl htwo)⟩

theorem Travels.goesOn {before : Nat} {helper : Agent} (h : Travels c' l' s' p earlier)
    (hless : 2 * l'.toSession.length + s'.pace < before) :
    Outcome x e x' c' i l' s' p earlier (toLex (3, before)) helper :=
  .goesOn (.travelling h) (.inl (Prod.Lex.toLex_lt_toLex.2 (.inr ⟨rfl, hless⟩)))

/-- The session finds the packet, or learns that it is not all there. -/
theorem Travels.framed (h : Travels c l s p earlier) (hp : IsLine p)
    (hseen : Seen x c e x' l.seat s s.frame) (hstage : s.stage = .framing) :
    Outcome x e x' (x.recount c e x') i l s.frame p earlier
      (toLex (3, 2 * l.toSession.length + s.pace)) (.task l.seat) := by
  have hfree := h.idle.request?_eq_none
  have hcommits := (hseen.books.settled hfree).trans h.commits
  have hpace : s.pace = 1 := by simp only [Session.pace, hstage]
  have htracks : s.framer.Tracks s.held :=
    Session.Account.tracks
      (hseen.before.steady.accounts.task _ _ (SharedLog.session?_eq_some.1 hseen.session))
  have hlimit := h.limit
  rw [← h.packet, List.length_append] at hlimit
  rcases List.eq_nil_or_concat l.toSession with hnone | ⟨front, b, hfront⟩
  · have hheld : s.held = p := by rw [← h.packet, hnone, List.append_nil]
    have hframe := frame_line s htracks (hheld ▸ hp) (Nat.le_of_add_right_le hlimit)
    have hoffered := hseen.books.offered hfree
    rw [hseen.before.offered_eq hseen.session hfree, Chronicle.landed, h.commits] at hoffered
    have hstores : Stores (x.recount c e x') l s.frame p earlier :=
      { stage := by rw [hframe, hheld]
        held := by rw [hframe]
        toSession := hnone
        toClient := h.toClient
        call := h.call
        commits := hcommits ▸ List.prefix_refl _
        offered := by
          rw [hoffered, hframe, hheld]
          rfl }
    obtain ⟨rank, helper, hunder, hless⟩ := hstores.underWay x'.log i
    refine .goesOn hunder (.inl (hless.trans_le ?_))
    exact Prod.Lex.toLex_le_toLex.2 (.inr ⟨rfl, Nat.zero_le _⟩)
  · -- the newline has not arrived, because it is the last byte of the packet
    have hopen : newline ∉ s.held := by
      obtain ⟨body, hbody, rfl⟩ := hp
      have hpacket := h.packet
      rw [hfront, List.concat_eq_append, ← List.append_assoc] at hpacket
      intro hmem
      have hbody' := (List.append_inj' hpacket rfl).1
      exact hbody (hbody' ▸ List.mem_append_left _ hmem)
    have hframe := frame_open s hopen (Nat.le_of_add_right_le hlimit)
    have hpace' : s.frame.pace = 0 := by rw [hframe]; rfl
    refine Travels.goesOn ?_ (by omega)
    rw [hframe]
    exact ⟨.inl rfl, h.packet, h.limit, h.toClient, h.call, hcommits⟩

/-- **What a turn does while the packet travels.** -/
theorem Travels.turn (h : Travels c l s p earlier) (hp : IsLine p)
    (hseen : Seen x c e x' l.seat s s') (hturn : x.Turn i l s x' e l' s') :
    Outcome x e x' (x.recount c e x') i l' s' p earlier
      (toLex (3, 2 * l.toSession.length + s.pace)) (.task l.seat) := by
  have hfree := h.idle.request?_eq_none
  have hcommits := (hseen.books.settled hfree).trans h.commits
  cases hturn with
  | called hcall => cases hcall.symm.trans h.call
  | @delivered size hstage hpos hsize =>
      have hne : l.toSession.take size ≠ [] := by
        rw [← List.length_pos_iff, List.length_take]
        omega
      have hpace : s.pace = 0 := by simp only [Session.pace, hstage]
      rw [s.receive_of_ne_nil hne]
      refine Travels.goesOn ?_ ?_
      · refine ⟨.inr (.inl rfl), ?_, h.limit, h.toClient, h.call, hcommits⟩
        rw [← h.packet, List.append_assoc, List.take_append_drop]
      · simp only [List.length_drop, Session.pace, hstage]
        omega
  | framed hstage => exact h.framed hp hseen hstage
  | sent hstage => rcases h.idle with e | e | e <;> cases e.symm.trans hstage
  | flushed hstage =>
      refine Travels.goesOn ?_ ?_
      · exact ⟨.inr (.inl rfl), h.packet, h.limit, h.toClient, h.call, hcommits⟩
      · simp only [Session.flushed, Session.pace, hstage]
        omega
  | answered hstage => rcases h.idle with e | e | e <;> cases e.symm.trans hstage
  | heard _ hpos hsize =>
      rw [h.toClient, List.length_nil] at hsize
      omega
  | returned _ hpos hsize =>
      rw [h.toClient, List.length_nil] at hsize
      omega
  | aside hpass =>
      have hnot := hpass.not_task hseen.after hseen.session' hfree rfl
      exact .goesOn (.travelling { h with commits := hcommits }) (.inr ⟨rfl, rfl, hnot⟩)

/-! ### The packet is stored -/

/-- The store's answer is the log as of the commit of the packet. -/
theorem Stores.answered (h : Stores c l s p earlier) (hp : IsLine p) {log : Bytes}
    (hseen : Seen x c .release x' l.seat s (s.stored (.ok log)))
    (hw : x.log.holder = some (l.seat, .finished (.ok (.log log)))) :
    Returns (x.recount c .release x') l (s.stored (.ok log)) p earlier [] log log := by
  have hsends : (s.stored (.ok log)).Sends log := (s.sends_echo log).1
  have hfree' := hsends.request?_eq_none
  have hasks : (Task.session s).request? ≠ none := by simp only [Task.request?, h.stage, ne_eq,
    reduceCtorEq, not_false_eq_true]
  have hlanded := hseen.after.offered_eq hseen.session' hfree'
  have hlogs := hseen.after.logs_eq hseen.session' hfree'
  rw [(hseen.books.standing hasks).trans h.offered] at hlanded
  have hreturned : share l.seat (x.recount c .release x').returned =
      share l.seat c.returned ++ [log] := by
    have hreply : x.log.reply = [log].map (l.seat, ·) := by
      simp only [SharedLog.reply, hw, List.map_singleton]
    rw [show (x.recount c .release x').returned = c.returned ++ x.log.reply from rfl, share_append,
      hreply, share_self]
  obtain ⟨rest, hrest⟩ := h.commits.trans hseen.books.commits
  -- one commit has come, of the packet, and with the log that was given back
  rw [Chronicle.landed, ← hrest, List.map_append, List.append_cancel_left_eq] at hlanded
  obtain ⟨m, rfl, hm⟩ := List.map_eq_singleton_iff.1 hlanded.symm
  rw [Chronicle.logs, ← hrest, List.map_append, hreturned] at hlogs
  have hlog : m.log = log := List.singleton_inj.1 (List.append_inj' hlogs rfl).2
  obtain ⟨bytes, log⟩ := m
  cases hm
  cases hlog
  have hmem : (l.seat, (⟨bytes, log⟩ : Commit)) ∈ (x.recount c .release x').commits := by
    rw [← mem_share, ← hrest]
    exact List.mem_append_right _ (List.mem_singleton.2 rfl)
  have hwhole := hseen.after.steady.recorded.told.before_append hmem
  refine ⟨hsends, h.held, h.toSession, h.call, ?_, ?_, hrest.symm⟩
  · rw [h.toClient]
    rfl
  · rw [h.toClient, List.nil_append]
    rintro rfl
    have hempty : bytes = [] := (List.append_eq_nil_iff.1 hwhole).2
    rw [hempty] at hp
    exact Nat.lt_irrefl 0 hp.length_pos

/-- **What a turn does while the packet is stored**: the log is there, or nothing has changed. -/
theorem Stores.turn (h : Stores c l s p earlier) (hp : IsLine p)
    (hseen : Seen x c e x' l.seat s s') (hturn : x.Turn i l s x' e l' s') :
    (∃ log, Returns (x.recount c e x') l' s' p earlier [] log log) ∨
      (Stores (x.recount c e x') l s p earlier ∧ l' = l ∧ s' = s ∧ PassesBy x i l e x') := by
  have hstage : ∀ {stage : Stage}, s.stage = stage → stage = .storing p := by
    intro stage hs
    rw [← hs, h.stage]
  cases hturn with
  | called hcall => cases hcall.symm.trans h.call
  | delivered hs => cases hstage hs
  | framed hs => cases hstage hs
  | sent hs => cases hstage hs
  | flushed hs => cases hstage hs
  | answered _ hw => exact .inl ⟨_, h.answered hp hseen hw⟩
  | heard _ hpos hsize =>
      rw [h.toClient, List.length_nil] at hsize
      omega
  | returned _ hpos hsize =>
      rw [h.toClient, List.length_nil] at hsize
      omega
  | aside hpass =>
      have hasks : (Task.session s).request? ≠ none := by
        simp only [Task.request?, h.stage, ne_eq, reduceCtorEq, not_false_eq_true]
      refine .inr ⟨{ h with commits := ?_, offered := ?_ }, rfl, rfl, hpass⟩
      · exact h.commits.trans hseen.books.commits
      · exact (hseen.books.standing hasks).trans h.offered

/-! ### The log travels back -/

theorem Returns.goesOn {received left log : Bytes} {rank : ℕ ×ₗ ℕ} {helper : Agent}
    (h : Returns c' l' s' p earlier received left log)
    (hless : toLex (0, l'.toClient.length + s'.pace) < rank) :
    Outcome x e x' c' i l' s' p earlier rank helper :=
  .goesOn (.returning h) (.inl hless)

theorem lex_of_lt {n a b : Nat} (h : a < b) : toLex (n, a) < toLex (n, b) :=
  Prod.Lex.toLex_lt_toLex.2 (.inr ⟨rfl, h⟩)

/-- What the client has received of the log ends with its packet when it is all there, and not before. -/
theorem Returns.endsWith_iff {received left log more rest : Bytes}
    (h : Returns c l s p earlier received left log) (hp : IsLine p) (ho : x.Orderly c)
    (hnew : ∀ m, (share l.seat c.commits)[earlier.length]? = some m →
      ∀ line ∈ lines m.before, ¬ p <:+ line)
    (hcut : more ++ rest = l.toClient ++ left) :
    endsWith (received ++ more) p = true ↔ rest = [] := by
  have hindex : (share l.seat c.commits)[earlier.length]? = some ⟨p, log⟩ := by
    rw [h.commits, List.getElem?_concat_length]
  have hmem : (l.seat, (⟨p, log⟩ : Commit)) ∈ c.commits :=
    mem_share.1 (List.mem_of_getElem? hindex)
  have hwhole : Commit.before ⟨p, log⟩ ++ p = log := ho.steady.recorded.told.before_append hmem
  have hecho : received ++ more ++ rest = log := by rw [List.append_assoc, hcut, h.echo]
  rw [endsWith, List.isSuffixOf_iff_suffix]
  constructor
  · intro hends
    by_contra hne
    have hpre : received ++ more <+: Commit.before ⟨p, log⟩ ++ p := by
      rw [hwhole, ← hecho]
      exact List.prefix_append _ _
    refine not_suffix_of_prefix hp (hnew _ hindex) hpre ?_ hends
    rw [hwhole, ← hecho]
    intro heq
    exact hne (List.self_eq_append_right.1 heq)
  · rintro rfl
    rw [List.append_nil] at hecho
    rw [hecho, ← hwhole]
    exact List.suffix_append _ _

/-- **What a turn does while the log travels back.** -/
theorem Returns.turn {received left log : Bytes} (h : Returns c l s p earlier received left log)
    (hp : IsLine p)
    (hnew : ∀ m, (share l.seat c.commits)[earlier.length]? = some m →
      ∀ line ∈ lines m.before, ¬ p <:+ line)
    (hseen : Seen x c e x' l.seat s s') (hturn : x.Turn i l s x' e l' s') :
    Outcome x e x' (x.recount c e x') i l' s' p earlier (toLex (0, l.toClient.length + s.pace))
      (if l.toClient = [] then .task l.seat else .client i) := by
  have hfree := h.sends.request?_eq_none
  have hcommits := (hseen.books.settled hfree).trans h.commits
  cases hturn with
  | called hcall => cases hcall.symm.trans h.call
  | delivered _ hpos hsize =>
      rw [h.toSession, List.length_nil] at hsize
      omega
  | framed hstage =>
      have hopen : newline ∉ s.held := by
        rw [h.held]
        exact List.not_mem_nil
      have hframe := frame_open s hopen (by rw [h.held]; exact Nat.zero_le _)
      cases h.sends.left_eq_nil (.inr (.inl hstage))
      have hreturns : Returns (x.recount c (.frame l.seat) x') l s.frame p earlier received [] log := by
        rw [hframe]
        exact ⟨.idle (.inl rfl), h.held, h.toSession, h.call, h.echo, h.more, hcommits⟩
      refine hreturns.goesOn (lex_of_lt ?_)
      simp only [hframe, Session.pace, hstage]
      omega
  | @sent size left' hstage hpos hsize =>
      cases h.sends.left_eq hstage
      obtain ⟨hsends, hpace⟩ := s.sends_echo (left.drop size)
      have hcut : l.toClient ++ left.take size ++ left.drop size = l.toClient ++ left := by
        rw [List.append_assoc, List.take_append_drop]
      have hreturns : Returns (x.recount c (.send i size) x')
          { l with toClient := l.toClient ++ left.take size } (s.echo (left.drop size)) p earlier
          received (left.drop size) log := by
        refine ⟨hsends, h.held, h.toSession, h.call, ?_, ?_, hcommits⟩
        · rw [hcut]
          exact h.echo
        · rw [hcut]
          exact h.more
      rw [s.sent_of_pos left hpos]
      refine hreturns.goesOn (lex_of_lt ?_)
      have hbefore : s.pace = 2 * left.length + 3 := by simp only [Session.pace, hstage]
      rw [List.length_drop] at hpace
      rw [hbefore, List.length_append, List.length_take]
      omega
  | flushed hstage =>
      cases h.sends.left_eq_nil (.inr (.inr hstage))
      have hreturns : Returns (x.recount c (.flush i) x') l (s.flushed (.ok ())) p earlier received []
          log :=
        ⟨.idle (.inr (.inl rfl)), h.held, h.toSession, h.call, h.echo, h.more, hcommits⟩
      refine hreturns.goesOn (lex_of_lt ?_)
      simp only [Session.flushed, Session.pace, hstage]
      omega
  | answered hstage =>
      cases h.sends with
      | echoing e => cases e.symm.trans hstage
      | idle e => rcases e with e | e | e <;> cases e.symm.trans hstage
  | @heard size o hcall hpos hsize hends =>
      cases hcall.symm.trans h.call
      have hcut : l.toClient.take size ++ (l.toClient.drop size ++ left) = l.toClient ++ left := by
        rw [← List.append_assoc, List.take_append_drop]
      have hmore : l.toClient.drop size ++ left ≠ [] := by
        intro hnone
        rw [(h.endsWith_iff hp hseen.before hnew hcut).2 hnone] at hends
        cases hends
      have hreturns : Returns (x.recount c (.read i size) x')
          { l with
            toClient := l.toClient.drop size
            call := some ⟨p, received ++ l.toClient.take size⟩ } s p earlier
          (received ++ l.toClient.take size) left log := by
        refine ⟨h.sends, h.held, h.toSession, rfl, ?_, hmore, hcommits⟩
        rw [List.append_assoc, hcut]
        exact h.echo
      refine hreturns.goesOn (lex_of_lt ?_)
      simp only [List.length_drop]
      omega
  | @returned size o hcall hpos hsize hends hreturned =>
      cases hcall.symm.trans h.call
      have hcut : l.toClient.take size ++ (l.toClient.drop size ++ left) = l.toClient ++ left := by
        rw [← List.append_assoc, List.take_append_drop]
      have hnone := (h.endsWith_iff hp hseen.before hnew hcut).1 hends
      obtain ⟨hdrop, hleft⟩ := List.append_eq_nil_iff.1 hnone
      have hwhole : received ++ l.toClient.take size = log := by
        rw [← h.echo, ← hcut, hnone, List.append_nil]
      have hidle : s.IsIdle := by
        cases h.sends with
        | echoing _ hne => exact absurd hleft hne
        | idle e => exact e
      rw [hwhole] at hreturned
      exact .ends hreturned ⟨h.toSession, hdrop, rfl, hidle, h.held⟩ hcommits
  | aside hpass =>
      have hnot := hpass.not_task hseen.after hseen.session' hfree rfl
      refine .goesOn (.returning { h with commits := hcommits }) (.inr ⟨rfl, rfl, ?_⟩)
      split
      · exact hnot
      · exact hpass.client

end Exchange

end EchoLog
