import EchoLog.Proofs.Framing.Position
/-!
# A packet over the limit stays refused

A look that refuses a packet over the limit changes neither framer nor buffer, so the next look finds the
same bytes in front.  What arrives later does not help: it comes after the bytes that are too many, and a
newline among it ends a line that is too long.  Such a framer is `Stuck`, and stuck it stays in every
operation but those that take bytes away, also when it is rewound.
-/

namespace EchoLog

namespace Operation

/-- Whether an operation takes bytes out of the buffer without giving them to anybody. -/
def takesAway : Operation → Bool
  | clear | shorten _ => true
  | feed _ | look | lookAtEnd | drain | rewind | copy => false

/-- The bytes that arrive in an operation. -/
def fed : Operation → Bytes
  | feed chunk => chunk
  | look | lookAtEnd | drain | rewind | copy | clear | shorten _ => []

theorem leavesStale_eq_takesAway (op : Operation) : op.leavesStale false = op.takesAway := by
  cases op <;> rfl

end Operation

namespace Framer

variable {f g : Framer} {buffer rest : Bytes} {op : Operation} {o : Output}

/-- The first packet in the buffer, finished or not, is over the limit. -/
structure Stuck (f : Framer) (buffer : Bytes) : Prop where
  tracks : f.Tracks buffer
  breaks : ¬ Fits f.limit buffer
  first : fitting f.limit buffer = []

/-! ## Looks at a stuck buffer -/

theorem stuck_of_oversized (ht : f.Tracks buffer) (h : (f.look buffer).cut = .oversized) :
    f.Stuck buffer := by
  refine ⟨ht, ?_, fitting_of_oversized ht h⟩
  rcases look_cases ht with ⟨l, rest, -, -, -, e⟩ | ⟨-, -, e⟩ | ⟨hbreaks, -⟩
  · rw [e] at h
    cases h
  · rw [e] at h
    cases h
  · exact hbreaks

/-- **A look at a stuck buffer is refused and changes nothing.** -/
theorem Stuck.look (h : f.Stuck buffer) : f.look buffer = ⟨.oversized, f, buffer⟩ := by
  rcases look_cases h.tracks with ⟨l, rest, hl, hshort, rfl, -⟩ | ⟨hopen, hshort, -⟩ | ⟨-, e⟩
  · have hfirst := h.first
    rw [fitting_line hl hshort] at hfirst
    cases hfirst
  · exact absurd ((fits_open hopen).2 hshort) h.breaks
  · exact e

/-- So is every operation that takes looks. -/
theorem Stuck.perform_of_takesLooks (h : f.Stuck buffer) (hop : op.takesLooks = true) :
    f.perform buffer op = ({ failure := some (.packetTooLarge f.limit), buffer := buffer }, f) := by
  cases op with
  | feed | rewind | copy | clear | shorten => cases hop
  | look =>
      rw [perform, h.look]
      rfl
  | lookAtEnd =>
      rw [perform, lookAtEnd, h.look]
      rfl
  | drain =>
      rw [perform_drain, h.look]
      rfl

/-! ## Operations -/

/-- More bytes come after those that are too many. -/
theorem Stuck.feed (h : f.Stuck buffer) (chunk : Bytes) : f.Stuck (buffer ++ chunk) := by
  obtain ⟨hbreaks, hfirst⟩ := fitting_append h.breaks chunk
  exact ⟨h.tracks.feed chunk, hbreaks, hfirst.trans h.first⟩

theorem Stuck.rewind (h : f.Stuck buffer) : f.rewind.Stuck buffer :=
  ⟨tracks_of_searched_zero rfl buffer, h.breaks, h.first⟩

/-- **An operation that takes no bytes away leaves a stuck framer stuck**, and gives no packet. -/
theorem Stuck.perform (h : f.Stuck buffer) (hop : op.takesAway = false)
    (hdone : f.perform buffer op = (o, g)) :
    g.Stuck o.buffer ∧ o.buffer = buffer ++ op.fed ∧ o.packets = [] := by
  cases op with
  | clear | shorten => cases hop
  | feed chunk =>
      cases hdone
      exact ⟨h.feed chunk, rfl, rfl⟩
  | rewind =>
      cases hdone
      exact ⟨h.rewind, (List.append_nil _).symm, rfl⟩
  | copy =>
      cases hdone
      exact ⟨h, (List.append_nil _).symm, rfl⟩
  | look | lookAtEnd | drain =>
      rw [h.perform_of_takesLooks rfl] at hdone
      cases hdone
      exact ⟨h, (List.append_nil _).symm, rfl⟩

/-- **And so do operations one after another.** -/
theorem Stuck.after {ops : List Operation} (hops : ∀ op ∈ ops, op.takesAway = false) :
    ∀ {f : Framer} {buffer : Bytes}, f.Stuck buffer → f.after buffer ops = (g, rest) →
      g.Stuck rest ∧ rest = buffer ++ ops.flatMap Operation.fed ∧
        ∀ o ∈ f.transcript buffer ops, o.packets = [] := by
  induction ops with
  | nil =>
      intro f buffer h hafter
      cases hafter
      exact ⟨h, (List.append_nil _).symm, fun o m => absurd m List.not_mem_nil⟩
  | cons op ops ih =>
      intro f buffer h hafter
      obtain ⟨hstuck, hbuffer, hnone⟩ := h.perform (hops op List.mem_cons_self) rfl
      obtain ⟨hend, hrest, hnever⟩ := ih (fun o m => hops o (List.mem_cons_of_mem _ m)) hstuck hafter
      refine ⟨hend, ?_, ?_⟩
      · rw [hrest, hbuffer, List.flatMap_cons, List.append_assoc]
      · intro o m
        rcases List.mem_cons.1 m with rfl | m
        · exact hnone
        · exact hnever o m

/-! ## How a framer gets stuck -/

/-- Only a packet over the limit makes a single look fail with the limit. -/
theorem cut_of_refused (hop : op = .look ∨ op = .lookAtEnd)
    (hfails : (f.perform buffer op).1.failure = some (.packetTooLarge f.limit)) :
    (f.look buffer).cut = .oversized := by
  rcases hop with rfl | rfl
  · rw [perform] at hfails
    cases hcut : (f.look buffer).cut with
    | oversized => rfl
    | packet p | incomplete =>
        rw [hcut] at hfails
        cases hfails
  · simp only [perform, lookAtEnd] at hfails
    cases hcut : (f.look buffer).cut with
    | oversized => rfl
    | packet p =>
        rw [hcut] at hfails
        cases hfails
    | incomplete =>
        -- bytes are left without a newline, which is another failure
        rw [hcut] at hfails
        cases hempty : (f.look buffer).buffer.isEmpty <;> rw [hempty] at hfails <;> cases hfails

/-- A drain that fails has come to a stuck buffer. -/
theorem stuck_of_drain {f : Framer} {buffer : Bytes} (ht : f.Tracks buffer)
    (hfails : (f.perform buffer .drain).1.failure = some (.packetTooLarge f.limit)) :
    (f.perform buffer .drain).2.Stuck (f.perform buffer .drain).1.buffer := by
  -- every packet makes the buffer shorter
  induction hn : buffer.length using Nat.strong_induction_on generalizing f buffer with
  | _ n ih =>
      rw [perform_drain] at hfails ⊢
      cases hcut : (f.look buffer).cut with
      | packet q =>
          rw [hcut, ← (look_framer f buffer).1] at hfails
          exact ih _ (hn ▸ length_lt_of_packet hcut) ht.look hfails rfl
      | incomplete =>
          rw [hcut] at hfails
          cases hfails
      | oversized =>
          have hstuck := stuck_of_oversized ht hcut
          rw [hstuck.look]
          exact hstuck

/-- **A framer is stuck once an operation has failed with the limit**; if that was a single look, it
changed nothing. -/
theorem stuck_of_refused (ht : f.Tracks buffer) (hdone : f.perform buffer op = (o, g))
    (hfails : o.failure = some (.packetTooLarge f.limit)) :
    g.Stuck o.buffer ∧ (op ≠ .drain → g = f ∧ o.buffer = buffer) := by
  cases op with
  | feed | rewind | copy | clear | shorten =>
      cases hdone
      cases hfails
  | drain =>
      cases hdone
      exact ⟨stuck_of_drain ht hfails, fun h => absurd rfl h⟩
  | look | lookAtEnd =>
      have hcut := cut_of_refused (by simp) ((congrArg (·.1.failure) hdone).trans hfails)
      have hstuck := stuck_of_oversized ht hcut
      rw [hstuck.perform_of_takesLooks rfl] at hdone
      cases hdone
      exact ⟨hstuck, fun _ => ⟨rfl, rfl⟩⟩

/-- The limit is the same all through a run. -/
theorem limit_of_after {ops : List Operation} (h : f.after buffer ops = (g, rest)) :
    g.limit = f.limit := by
  have hsame := searcher_after ops f buffer
  rw [h] at hsame
  exact congrArg Searcher.limit hsame

/-- A framer goes on tracking a buffer that nobody takes bytes from. -/
theorem Tracks.after {ops : List Operation} (hops : ∀ op ∈ ops, op.takesAway = false) :
    ∀ {f : Framer} {buffer : Bytes}, f.Tracks buffer → f.after buffer ops = (g, rest) →
      g.Tracks rest := by
  induction ops with
  | nil =>
      intro f buffer ht hafter
      cases hafter
      exact ht
  | cons op ops ih =>
      intro f buffer ht hafter
      have hleft : op.leavesStale false = false :=
        op.leavesStale_eq_takesAway.trans (hops op List.mem_cons_self)
      exact ih (fun o m => hops o (List.mem_cons_of_mem _ m)) (Tracks.perform (fun _ => ht) hleft) hafter

end Framer

/-- **A packet over the limit stays refused.**  In every run in which the buffer is changed only by bytes
that arrive and by looks: when an operation fails because of the limit, a single look has left framer and
buffer as they were; and after any further such operations, with rewinds or without, the buffer has only
grown by what arrived, no packet was given, and every look, of whatever kind, fails in the same way and
changes nothing. -/
theorem oversized_packet_stays_refused {limit : Nat} {remainder : Remainder} {before : List Operation}
    {f g : Framer} {buffer : Bytes} {op : Operation} {o : Output}
    (hbefore : ∀ op ∈ before, op.takesAway = false)
    (hreached : Framer.after ⟨0, limit, remainder⟩ [] before = (f, buffer))
    (hdone : f.perform buffer op = (o, g)) (hfails : o.failure = some (.packetTooLarge limit)) :
    (op ≠ .drain → g = f ∧ o.buffer = buffer) ∧
    ∀ later h rest, (∀ op ∈ later, op.takesAway = false) → g.after o.buffer later = (h, rest) →
      rest = o.buffer ++ later.flatMap Operation.fed ∧
      (∀ seen ∈ g.transcript o.buffer later, seen.packets = []) ∧
      ∀ next : Operation, next.takesLooks = true →
        h.perform rest next = ({ failure := some (.packetTooLarge limit), buffer := rest }, h) := by
  have hlimit : f.limit = limit := Framer.limit_of_after hreached
  have htracks := Framer.Tracks.after hbefore (Framer.tracks_of_searched_zero rfl []) hreached
  obtain ⟨hstuck, hsame⟩ := Framer.stuck_of_refused htracks hdone (hlimit ▸ hfails)
  refine ⟨hsame, ?_⟩
  intro later h rest hlater hafter
  obtain ⟨hend, hrest, hnever⟩ := hstuck.after hlater hafter
  refine ⟨hrest, hnever, ?_⟩
  intro next hnext
  have hkept : g.limit = f.limit := by
    have hsame := Framer.searcher_perform f buffer op
    rw [hdone] at hsame
    exact congrArg Searcher.limit hsame
  rw [hend.perform_of_takesLooks hnext, Framer.limit_of_after hafter, hkept, hlimit]

/-- Eight bytes where four are allowed: no newline, no further line and no rewind gets them through. -/
theorem oversized_packet_stays_refused_with_newline :
    let before := [.feed (utf8 "one\nto"), .look, .look, .feed (utf8 "o long")]
    let later := [.feed (utf8 "\nnext\n"), .look, .rewind, .drain]
    let f : Framer := ⟨2, 4, .keep⟩
    Framer.after ⟨0, 4, .keep⟩ [] before = (f, utf8 "too long") ∧
      f.perform (utf8 "too long") .look =
        ({ failure := some (.packetTooLarge 4), buffer := utf8 "too long" }, f) ∧
      f.after (utf8 "too long") later = (f.rewind, utf8 "too long\nnext\n") ∧
      (∀ seen ∈ f.transcript (utf8 "too long") later, seen.packets = []) ∧
      f.rewind.perform (utf8 "too long\nnext\n") .lookAtEnd =
        ({ failure := some (.packetTooLarge 4), buffer := utf8 "too long\nnext\n" }, f.rewind) := by
  intro before later f
  have hreached : Framer.after ⟨0, 4, .keep⟩ [] before = (f, utf8 "too long") := by decide
  have hdone : f.perform (utf8 "too long") .look =
      ({ failure := some (.packetTooLarge 4), buffer := utf8 "too long" }, f) := by decide
  have hafter : f.after (utf8 "too long") later = (f.rewind, utf8 "too long\nnext\n") := by decide +kernel
  obtain ⟨-, hlater⟩ := oversized_packet_stays_refused (by decide) hreached hdone rfl
  obtain ⟨-, hnever, hstill⟩ := hlater later _ _ (by decide) hafter
  exact ⟨hreached, hdone, hafter, hnever, hstill .lookAtEnd rfl⟩

end EchoLog
