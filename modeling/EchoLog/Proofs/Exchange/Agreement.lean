import EchoLog.Proofs.Exchange.Schedules
/-!
# Clients and sessions agree

Any number of clients talk to sessions over their links, in any order and in portions of any size, while
other tasks use the log as well; no file step fails.  A client's call is `Clear` if its packet is one
line that the session admits, and ends no line that is in the log by the time the packet is committed.

A clear call on a quiet link gets the log as of the commit of its packet, and leaves the link quiet; so
clear calls that follow one another each get their own echo, and a client that has the log to itself gets
back all that it has sent (`Agreement`).
-/

namespace EchoLog

namespace Recounted

open Exchange

/-- What is asked of a call: one line, which the session admits, and which ends no line of the log before
it. -/
structure Clear (r : Recounted) (σ : Schedule) (n i : Nat) (payload : Bytes) : Prop where
  oneLine : newline ∉ payload.dropLast
  admitted : (r.play σ n).now.Admits i (Client.packetOf payload)
  unseen : r.Unseen σ i ((r.play σ n).commitsOf i) (Client.packetOf payload)

/-- A call that was made at a moment gets its echo, unless it is open for ever; and under a fair schedule
it is not. -/
structure Echoed (r : Recounted) (σ : Schedule) (n i : Nat) (p : Bytes) : Prop where
  safe : (∀ m, n < m → (r.play σ m).now.Awaits i p) ∨ ∃ m echo, r.Gets σ n i p m echo
  live : r.Fair σ → ∃ m echo, r.Gets σ n i p m echo

/-- Whether all calls on a link from one moment to another, the last included, are clear. -/
def AllClear (r : Recounted) (σ : Schedule) (i first last : Nat) : Prop :=
  ∀ m payload, first ≤ m → m ≤ last → r.Happens σ m (.call i payload) → r.Clear σ m i payload

/-- Whether nobody commits anything but the session at the other end of a link. -/
def Lone (r : Recounted) (σ : Schedule) (i : Nat) : Prop :=
  ∀ m l, (r.play σ m).now.links[i]? = some l → ∀ commit ∈ (r.play σ m).past.commits, commit.1 = l.seat

/-- What clients and sessions agree on. -/
structure Agreement (r : Recounted) (σ : Schedule) : Prop where
  /-- A clear call on a quiet link gets its echo. -/
  each : ∀ n i payload, r.Happens σ n (.call i payload) → (r.play σ n).now.Quiet i →
    r.Clear σ n i payload → r.Echoed σ n i (Client.packetOf payload)
  /-- From a moment on at which a link is quiet, clear calls are made on a quiet link, and each of them
  gets its echo. -/
  successive : ∀ first n i payload, first ≤ n → (r.play σ first).now.Quiet i →
    r.AllClear σ i first n → r.Happens σ n (.call i payload) →
    (r.play σ n).now.Quiet i ∧ r.Echoed σ n i (Client.packetOf payload)
  /-- A client that has the log to itself and makes clear calls gets with each echo all packets that it
  has sent so far. -/
  lone : ∀ n i payload, r.AllClear σ i 0 n → r.Lone σ i → r.Happens σ n (.call i payload) →
    r.Echoed σ n i (Client.packetOf payload) ∧
      ∀ m echo, r.Gets σ n i (Client.packetOf payload) m echo →
        echo = (share i (r.play σ (n + 1)).asked).flatten
  /-- So has the only client of a log at which nobody else is seated. -/
  single : r.now.log.seats.length = 1 → ∀ i, r.Lone σ i

section Play

variable {r : Recounted} {σ : Schedule} {i n : Nat} {payload : Bytes}
  (hstart : r.now.Orderly r.past) (hcalm : r.Calm σ)

/-! ## One call -/

theorem asked_next (hnot : ∀ payload, ¬ r.Happens σ n (.call i payload)) :
    share i (r.play σ (n + 1)).asked = share i (r.play σ n).asked := by
  by_cases hevent : ∃ e, r.Happens σ n e
  · obtain ⟨e, he⟩ := hevent
    obtain ⟨x, -, hplay⟩ := play_of_happens he
    have hnone : share i e.asked = [] := by
      cases e with
      | call j payload =>
          refine share_other ?_ [Client.packetOf payload]
          rintro rfl
          exact hnot payload he
      | _ => rfl
    rw [hplay, share_append, hnone, List.append_nil]
  · rw [play_of_not_happens (not_exists.1 hevent)]

theorem asked_call (hcall : r.Happens σ n (.call i payload)) :
    share i (r.play σ (n + 1)).asked = share i (r.play σ n).asked ++ [Client.packetOf payload] := by
  obtain ⟨x, -, hplay⟩ := play_of_happens hcall
  rw [hplay, share_append]
  exact congrArg _ (share_self i [Client.packetOf payload])

include hstart hcalm

/-- A link without a call stays quiet. -/
theorem quiet_next (hquiet : (r.play σ n).now.Quiet i)
    (hnot : ∀ payload, ¬ r.Happens σ n (.call i payload)) :
    (r.play σ (n + 1)).now.Quiet i ∧ (r.play σ (n + 1)).commitsOf i = (r.play σ n).commitsOf i := by
  by_cases hevent : ∃ e, r.Happens σ n e
  · obtain ⟨e, he⟩ := hevent
    obtain ⟨x, hmove, hplay⟩ := play_of_happens he
    obtain ⟨l, s, hl, hs, hrest⟩ := hquiet
    have ho := orderly_play hstart hcalm n
    obtain ⟨l', s', hl', hs', hseat, hturn⟩ := ho.turns hmove hl hs
    have hseen := ho.seen (hcalm n e he.1) hmove hs hs'
    rw [hplay]
    rcases hrest.turn hseen hturn with ⟨hrest', -⟩ | ⟨payload, rfl, -⟩
    · refine ⟨⟨l', s', hl', by rwa [hseat], hrest'⟩, ?_⟩
      rw [commitsOf_eq hl, commitsOf_eq hl', hseat]
      exact hseen.books.settled hrest.idle.request?_eq_none
    · exact absurd he (hnot payload)
  · rw [play_of_not_happens (not_exists.1 hevent)]
    exact ⟨hquiet, rfl⟩

theorem under_of_call (hquiet : (r.play σ n).now.Quiet i) (hcall : r.Happens σ n (.call i payload))
    (hclear : r.Clear σ n i payload) : ∃ rank helper,
      (r.play σ (n + 1)).Under i (Client.packetOf payload) ((r.play σ n).commitsOf i)
        (share i (r.play σ n).heard) rank helper := by
  obtain ⟨x, hmove, hplay⟩ := play_of_happens hcall
  obtain ⟨l, s, hl, hs, hrest⟩ := hquiet
  have ho := orderly_play hstart hcalm n
  obtain ⟨l', s', hl', hs', hseat, hturn⟩ := ho.turns hmove hl hs
  have hseen := ho.seen (hcalm n _ hcall.1) hmove hs hs'
  rw [hplay, commitsOf_eq hl]
  rcases hrest.turn hseen hturn with ⟨-, hnot⟩ | ⟨payload', he, htravels⟩
  · exact absurd rfl (hnot payload)
  · cases he
    have htravels := htravels (hclear.admitted l s hl hs)
    have hp := Client.isLine_packetOf hclear.oneLine
    refine ⟨_, _, l', s', hl', by rwa [hseat], .travelling htravels, [], [], ?_,
      hears_start hp htravels.call⟩
    rw [share_append]
    rfl

/-- **A clear call on a quiet link gets its echo.** -/
theorem echoed_of_call (hquiet : (r.play σ n).now.Quiet i) (hcall : r.Happens σ n (.call i payload))
    (hclear : r.Clear σ n i payload) : r.Echoed σ n i (Client.packetOf payload) := by
  have hp := Client.isLine_packetOf hclear.oneLine
  obtain ⟨rank, helper, hunder⟩ := under_of_call hstart hcalm hquiet hcall hclear
  have hlater : ∀ m, n < m → (r.play σ m).now.Awaits i (Client.packetOf payload) ∨
      ∃ m echo, r.Gets σ n i (Client.packetOf payload) m echo := by
    intro m hm
    obtain ⟨d, rfl⟩ := Nat.exists_eq_add_of_lt hm
    rw [Nat.add_right_comm]
    rcases hunder.later hstart hcalm hp hclear.unseen d with
      ⟨rank', helper', hunder'⟩ | ⟨m, echo, hn, -, hopen, hends⟩
    · exact .inl hunder'.awaits
    · exact .inr ⟨m, echo, hn, hopen, hends.returned, hends.read, hends.commit, hends.quiet⟩
  refine ⟨?_, ?_⟩
  · by_cases hgets : ∃ m echo, r.Gets σ n i (Client.packetOf payload) m echo
    · exact .inr hgets
    · exact .inl fun m hm => (hlater m hm).resolve_right hgets
  · intro hfair
    obtain ⟨m, echo, hm, hends⟩ := hunder.comes_back hstart hcalm hp hclear.unseen hfair
    -- it has returned, so it is not open any more
    exact (hlater (m + 1) (by omega)).resolve_left (not_awaits_of_quiet hends.quiet)

/-! ## One call after the other -/

omit hstart hcalm

/-- How a link stands between clear calls or in one of them; `a` is what its client had asked for at some
moment, `b` what was committed for it by then, and what has been asked for since is committed, up to the
open call. -/
inductive InStep (r : Recounted) (σ : Schedule) (i : Nat) (a b : List Bytes) (n : Nat) : Prop where
  | quiet {since : List Bytes} : (r.play σ n).now.Quiet i → share i (r.play σ n).asked = a ++ since →
      ((r.play σ n).commitsOf i).map (·.bytes) = b ++ since → InStep r σ i a b n
  | under {since heard : List Bytes} {p : Bytes} {earlier : List Commit} {rank : ℕ ×ₗ ℕ}
      {helper : Agent} : (r.play σ n).Under i p earlier heard rank helper → IsLine p → r.Unseen σ i earlier p →
      share i (r.play σ n).asked = a ++ (since ++ [p]) → earlier.map (·.bytes) = b ++ since →
      InStep r σ i a b n

variable {a b : List Bytes}

include hstart hcalm

/-- **Each moment keeps a link in step**, as long as its calls are clear. -/
theorem InStep.next (h : InStep r σ i a b n)
    (hclear : ∀ payload, r.Happens σ n (.call i payload) → r.Clear σ n i payload) :
    InStep r σ i a b (n + 1) := by
  cases h with
  | quiet hquiet hasked hcommits =>
      by_cases hcall : ∃ payload, r.Happens σ n (.call i payload)
      · obtain ⟨payload, hcall⟩ := hcall
        obtain ⟨rank, helper, hunder⟩ := under_of_call hstart hcalm hquiet hcall (hclear payload hcall)
        refine .under hunder (Client.isLine_packetOf (hclear payload hcall).oneLine)
          (hclear payload hcall).unseen ?_ hcommits
        rw [asked_call hcall, hasked, List.append_assoc]
      · have hnot := not_exists.1 hcall
        obtain ⟨hquiet', hsame⟩ := quiet_next hstart hcalm hquiet hnot
        exact .quiet hquiet' ((asked_next hnot).trans hasked) (by rw [hsame, hcommits])
  | under hunder hp hunseen hasked hcommits =>
      have hasked' := (asked_next hunder.not_call).trans hasked
      rcases hunder.next hstart hcalm hp hunseen with ⟨rank', helper', hnext, -⟩ | ⟨echo, hends⟩
      · exact .under hnext hp hunseen hasked' hcommits
      · refine .quiet hends.quiet hasked' ?_
        rw [hends.commit, List.map_append, hcommits, List.append_assoc]
        rfl

/-- A link stays in step from a moment on at which it is quiet. -/
theorem inStep_of_quiet {first : Nat} (hquiet : (r.play σ first).now.Quiet i)
    (hclear : r.AllClear σ i first n) (hn : first ≤ n) :
    InStep r σ i (share i (r.play σ first).asked) (((r.play σ first).commitsOf i).map (·.bytes)) n := by
  obtain ⟨d, rfl⟩ := Nat.exists_eq_add_of_le hn
  clear hn
  induction d with
  | zero => exact .quiet hquiet (List.append_nil _).symm (List.append_nil _).symm
  | succ d ih =>
      have hbefore : r.AllClear σ i first (first + d) :=
        fun m payload hm hm' => hclear m payload hm (Nat.le_succ_of_le hm')
      refine (ih hbefore).next hstart hcalm ?_
      intro payload hcall
      exact hclear _ payload (Nat.le_add_right first d) (Nat.le_succ _) hcall

omit hstart hcalm

/-- A call can be made on a link in step only when the link is quiet. -/
theorem InStep.of_call (h : InStep r σ i a b n) (hcall : r.Happens σ n (.call i payload)) :
    (r.play σ n).now.Quiet i ∧ ∃ since, share i (r.play σ n).asked = a ++ since ∧
      ((r.play σ n).commitsOf i).map (·.bytes) = b ++ since := by
  cases h with
  | @quiet since hquiet hasked hcommits => exact ⟨hquiet, since, hasked, hcommits⟩
  | under hunder => exact absurd hcall (hunder.not_call payload)

include hstart hcalm

/-- **Clear calls that follow one another each get their own echo.** -/
theorem successive_of_quiet {first : Nat} (hn : first ≤ n) (hquiet : (r.play σ first).now.Quiet i)
    (hclear : r.AllClear σ i first n) (hcall : r.Happens σ n (.call i payload)) :
    (r.play σ n).now.Quiet i ∧ r.Echoed σ n i (Client.packetOf payload) := by
  obtain ⟨hquiet', -⟩ := (inStep_of_quiet hstart hcalm hquiet hclear hn).of_call hcall
  exact ⟨hquiet', echoed_of_call hstart hcalm hquiet' hcall (hclear n payload hn (Nat.le_refl n) hcall)⟩

omit hstart hcalm

theorem seats_play (r : Recounted) (σ : Schedule) (n : Nat) :
    (r.play σ n).now.links.map (·.seat) = r.now.links.map (·.seat) := by
  induction n with
  | zero => rfl
  | succ n ih =>
      by_cases hevent : ∃ e, r.Happens σ n e
      · obtain ⟨e, he⟩ := hevent
        obtain ⟨x, hmove, hplay⟩ := play_of_happens he
        rw [hplay, ← ih]
        exact hmove.seats
      · rw [play_of_not_happens (not_exists.1 hevent)]
        exact ih

theorem exists_link_of_call (hcall : r.Happens σ n (.call i payload)) :
    ∃ l, r.now.links[i]? = some l := by
  obtain ⟨-, x, hx⟩ := hcall
  have hlink : ∃ l, (r.play σ n).now.links[i]? = some l := by
    cases moves_of_step? hx with
    | call hl => exact ⟨_, hl⟩
    | plain he => cases he
  obtain ⟨l, hl⟩ := hlink
  have hseat : (r.now.links.map (·.seat))[i]? = some l.seat := by
    rw [← seats_play r σ n, List.getElem?_map, hl, Option.map_some]
  rw [List.getElem?_map] at hseat
  obtain ⟨m, hm, -⟩ := Option.map_eq_some_iff.1 hseat
  exact ⟨m, hm⟩

/-! ## A client that has the log to itself -/

theorem kind_play (r : Recounted) (σ : Schedule) (n k : Nat) :
    ((r.play σ n).now.log.task? k).map Task.kind = (r.now.log.task? k).map Task.kind := by
  induction n with
  | zero => rfl
  | succ n ih =>
      by_cases hevent : ∃ e, r.Happens σ n e
      · obtain ⟨e, he⟩ := hevent
        obtain ⟨x, hmove, hplay⟩ := play_of_happens he
        rw [hplay, ← ih]
        rcases hmove.inner with ⟨-, hlog⟩ | ⟨inner, -, hm, -⟩
        · rw [hlog]
        · exact hm.kind k
      · rw [play_of_not_happens (not_exists.1 hevent)]
        exact ih

/-- Where there is one seat only, its session has the log to itself. -/
theorem lone_of_one_seat (hstart : r.now.Orderly r.past) (hcalm : r.Calm σ)
    (hone : r.now.log.seats.length = 1) (i : Nat) : r.Lone σ i := by
  intro n l hl commit hcommit
  have ho := orderly_play hstart hcalm n
  have hempty : ∀ {k : Nat}, 0 < k → (r.play σ n).now.log.task? k = none := by
    intro k hk
    have hkind := kind_play r σ n k
    have hseat : r.now.log.seats[k]? = none := List.getElem?_eq_none (by omega)
    rw [show r.now.log.task? k = none by rw [SharedLog.task?, hseat]; rfl] at hkind
    exact Option.map_eq_none_iff.1 hkind
  have hl₀ : l.seat = 0 := by
    by_contra hne
    obtain ⟨s, hs⟩ := ho.seated l.seat (List.mem_map_of_mem (List.mem_of_getElem? hl))
    cases (hempty (Nat.pos_of_ne_zero hne)).symm.trans (SharedLog.session?_eq_some.1 hs)
  have hcommit₀ : commit.1 = 0 := by
    by_contra hne
    have hoffered := ho.steady.accounts.nobody commit.1 (hempty (Nat.pos_of_ne_zero hne))
    have hlanded := ho.steady.balanced.landed_prefix commit.1
    rw [hoffered, List.prefix_nil, Chronicle.landed, List.map_eq_nil_iff] at hlanded
    have hmem : commit.2 ∈ share commit.1 (r.play σ n).past.commits := mem_share.2 hcommit
    rw [hlanded] at hmem
    cases hmem
  rw [hl₀, hcommit₀]

include hstart hcalm

theorem echo_of_lone (hquiet : (r.play σ 0).now.Quiet i) (hasked : share i r.asked = [])
    (hcommits : r.commitsOf i = []) (hclear : r.AllClear σ i 0 n) (hlone : r.Lone σ i)
    (hcall : r.Happens σ n (.call i payload)) {m : Nat} {echo : Bytes}
    (hgets : r.Gets σ n i (Client.packetOf payload) m echo) :
    echo = (share i (r.play σ (n + 1)).asked).flatten := by
  have hstep := inStep_of_quiet hstart hcalm hquiet hclear (Nat.zero_le n)
  obtain ⟨-, since, hsince, hlanded⟩ := hstep.of_call hcall
  rw [show r.play σ 0 = r from rfl, hasked, List.nil_append] at hsince
  rw [show r.play σ 0 = r from rfl, hcommits, List.map_nil, List.nil_append] at hlanded
  obtain ⟨l, s, hl, -⟩ := hgets.quiet
  have htold := (orderly_play hstart hcalm (m + 1)).steady.recorded.told
  have hcommit := hgets.commit
  rw [commitsOf_eq hl, share_of_owner (hlone (m + 1) l hl)] at hcommit
  rw [asked_call hcall, hsince, ← hlanded]
  have hlog := htold.log_of_last hcommit
  rw [List.map_append] at hlog
  exact hlog

end Play

end Recounted

/-! ## From the start -/

/-- Clients at the other ends of some sessions, when nobody has said anything yet. -/
def Exchange.opening (disk : Disk) (store : Store) (seats : List Seat) (places : List Nat) :
    Exchange where
  log := { disk := disk, store := store, seats := seats }
  links := places.map fun seat => { seat := seat }

namespace Exchange

section Opening

variable {disk : Disk} {store : Store} {seats : List Seat} {places : List Nat}

theorem starting_of_session {g : SharedLog} {k : Nat} {s : Session}
    (hseats : ∀ seat ∈ g.seats, seat.task.Starting) (hs : g.session? k = some s) :
    ∃ peer settings, s = Session.start peer settings := by
  obtain ⟨seat, hseat, htask⟩ := Option.map_eq_some_iff.1 (SharedLog.session?_eq_some.1 hs)
  have hstarting := hseats seat (List.mem_of_getElem? hseat)
  rw [htask] at hstarting
  cases hstarting with
  | session peer settings => exact ⟨peer, settings, rfl⟩

variable (hseats : ∀ seat ∈ seats, seat.task.Starting ∧ seat.cancelled = false)
  (hplaces : ∀ k ∈ places, ∃ s, (opening disk store seats places).log.session? k = some s)

include hseats hplaces

theorem orderly_opening (hfile : disk.content? store.path = some []) (hcounter : store.committed = 0)
    (hapart : places.Nodup) : (opening disk store seats places).Orderly {} := by
  have hstarting : ∀ seat ∈ seats, seat.task.Starting := fun seat hseat => (hseats seat hseat).1
  have hplaced : (opening disk store seats places).links.map (·.seat) = places := by
    rw [opening, List.map_map]
    exact List.map_id _
  refine ⟨SharedLog.steady_start hfile hcounter hstarting, ?_, ?_, ?_, ?_, ?_⟩
  · refine SharedLog.serene_of_tasks ?_ ?_
    · exact fun i t ht => (SharedLog.starting_of_seats hstarting ht).wasRefused
    · nofun
  · intro i
    rw [SharedLog.isCancelled, Option.any_eq_false]
    intro seat hseat
    rw [(hseats seat (List.mem_of_getElem? hseat)).2]
  · intro i s hs
    obtain ⟨peer, settings, rfl⟩ := starting_of_session hstarting hs
    exact Nat.lt_of_lt_of_le Nat.zero_lt_one (Nat.le_max_right settings.chunkSize 1)
  · rw [hplaced]
    exact hapart
  · rw [hplaced]
    exact hplaces

theorem quiet_opening {i : Nat} {l : Link} (hl : (opening disk store seats places).links[i]? = some l) :
    (opening disk store seats places).Quiet i := by
  have hl' := hl
  rw [opening, List.getElem?_map, Option.map_eq_some_iff] at hl'
  obtain ⟨k, hk, rfl⟩ := hl'
  obtain ⟨s, hs⟩ := hplaces k (List.mem_of_getElem? hk)
  obtain ⟨peer, settings, rfl⟩ := starting_of_session (fun seat hseat => (hseats seat hseat).1) hs
  exact ⟨_, _, hl, hs, rfl, rfl, rfl, .inl rfl, rfl⟩

end Opening

end Exchange

open Recounted

/-- **Clients and sessions agree.**  Sessions, timestamp writers and readers share a log that was just
created, and clients are at the other ends of some of the sessions.  Under any schedule in which no file
step fails, clear calls get their echoes. -/
theorem clients_and_sessions_agree {disk fresh : Disk} {path : Path} {sync : Bool} {store : Store}
    (hcreate : Store.create disk path sync = .ok (store, fresh)) {seats : List Seat}
    (hseats : ∀ seat ∈ seats, seat.task.Starting ∧ seat.cancelled = false) {places : List Nat}
    (hapart : places.Nodup)
    (hplaces : ∀ k ∈ places, ∃ s, (Exchange.opening fresh store seats places).log.session? k = some s)
    {σ : Schedule} (hcalm : Calm { now := Exchange.opening fresh store seats places } σ) :
    Agreement { now := Exchange.opening fresh store seats places } σ := by
  have hintact := History.intact_create hcreate
  have hstart := Exchange.orderly_opening hseats hplaces hintact.file hintact.counter hapart
  refine ⟨?_, ?_, ?_, fun hone i => lone_of_one_seat hstart hcalm hone i⟩
  · exact fun n i payload hcall hquiet hclear => echoed_of_call hstart hcalm hquiet hcall hclear
  · exact fun first n i payload hn hquiet hclear hcall =>
      successive_of_quiet hstart hcalm hn hquiet hclear hcall
  · intro n i payload hclear hlone hcall
    obtain ⟨l, hl⟩ := exists_link_of_call hcall
    have hquiet : (Exchange.opening fresh store seats places).Quiet i :=
      Exchange.quiet_opening hseats hplaces hl
    have hcommits : commitsOf { now := Exchange.opening fresh store seats places } i = [] :=
      commitsOf_eq hl
    refine ⟨(successive_of_quiet hstart hcalm (Nat.zero_le n) hquiet hclear hcall).2, ?_⟩
    intro m echo hgets
    exact echo_of_lone hstart hcalm hquiet rfl hcommits hclear hlone hcall hgets

/-- Two clients at a log that was just created; one session reads in small portions, the other drops what
follows a packet. -/
def Exchange.table : Exchange :=
  .opening { nodes := [(["data"], .file [])] } { path := ⟨[], "data"⟩ }
    [⟨.session (.start (.quad 127 0 0 1 1) { chunkSize := 2 }), false⟩,
      ⟨.session (.start (.quad 127 0 0 1 2) { remainder := .drop }), false⟩] [0, 1]

/-- Three calls that overlap, with packets and echoes in portions. -/
def Exchange.conversation : List ExchangeEvent :=
  [.call 0 (utf8 "ab"), .call 1 (utf8 "c\n"), .deliver 0 2, .deliver 1 2, .frame 0, .frame 1,
    .deliver 0 1, .ask 1, .frame 0, .grant, .ask 0, .file, .file, .file, .file, .release, .grant,
    .send 1 1, .read 1 1, .send 1 1, .file, .read 1 1, .flush 1, .frame 1, .file, .file,
    .call 1 (utf8 "d"), .file, .release, .send 0 4, .read 0 3, .read 0 1, .deliver 1 2, .frame 1,
    .send 0 1, .ask 1, .grant, .read 0 1, .file, .file, .file, .file, .release, .send 1 7, .read 1 7,
    .flush 0, .frame 0, .flush 1, .frame 1]

/-- The theorem at a call that waits for another: it gets the log with both packets. -/
theorem conversation_agrees :
    let r : Recounted := { now := Exchange.table }
    let σ : Schedule := fun n => Exchange.conversation[n]?
    r.Fair σ ∧ (∃ m echo, r.Gets σ 0 0 (utf8 "ab\n") m echo) ∧
      (r.play σ 49).now.returned =
        [⟨1, utf8 "c\n", utf8 "c\n"⟩, ⟨0, utf8 "ab\n", utf8 "c\nab\n"⟩,
          ⟨1, utf8 "d\n", utf8 "c\nab\nd\n"⟩] := by
  intro r σ
  have hcreate : Store.create {} ⟨[], "data"⟩ false =
      .ok (({ path := ⟨[], "data"⟩ } : Store), ({ nodes := [(["data"], .file [])] } : Disk)) := rfl
  have hend : ∀ m, 49 ≤ m → σ m = none := fun m hm => List.getElem?_eq_none hm
  have hcalm : r.Calm σ := by
    have hall : ∀ n < 49, (σ n).all (r.play σ n).now.isCalm = true := by decide +kernel
    intro n e he
    have hn : n < 49 := (List.getElem?_eq_some_iff.1 he).1
    have hcalm := hall n hn
    rwa [he, Option.all_some] at hcalm
  have hfair : r.Fair σ := Recounted.fair_of_rests hend (by decide +kernel)
  have hagree : Agreement r σ :=
    clients_and_sessions_agree hcreate
      (by
        simp only [List.forall_mem_cons, and_true]
        exact ⟨.session _ _, .session _ _, List.forall_mem_nil _⟩)
      (by decide)
      (by
        simp only [List.forall_mem_cons]
        exact ⟨⟨_, rfl⟩, ⟨_, rfl⟩, List.forall_mem_nil _⟩)
      hcalm
  have hcall : r.Happens σ 0 (.call 0 (utf8 "ab")) := ⟨rfl, _, rfl⟩
  have hquiet : (r.play σ 0).now.Quiet 0 := ⟨_, _, rfl, rfl, rfl, rfl, rfl, .inl rfl, rfl⟩
  have hclear : r.Clear σ 0 0 (utf8 "ab") := by
    refine ⟨by decide +kernel, ?_, ?_⟩
    · rintro l s ⟨⟩ ⟨⟩
      decide +kernel
    · have hall : ∀ m ≤ 49, ((r.play σ m).commitsOf 0)[0]?.all (fun commit =>
          (lines commit.before).all fun line => !(utf8 "ab\n").isSuffixOf line) = true := by
        decide +kernel
      intro m commit hcommit line hline hends
      rw [Recounted.play_of_finished hend m] at hcommit
      have hcheck := hall (min m 49) (Nat.min_le_right m 49)
      rw [show (r.play σ 0).commitsOf 0 = [] from rfl, List.length_nil] at hcommit
      rw [hcommit, Option.all_some, List.all_eq_true] at hcheck
      have hnot := hcheck line hline
      have hpacket : Client.packetOf (utf8 "ab") = utf8 "ab\n" := by decide +kernel
      rw [hpacket, ← List.isSuffixOf_iff_suffix] at hends
      rw [hends] at hnot
      cases hnot
  exact ⟨hfair, (hagree.each 0 0 (utf8 "ab") hcall hquiet hclear).live hfair, by decide +kernel⟩

end EchoLog
