import EchoLog.Client.Wire
import Mathlib.Data.List.Infix
/-!
# Reading until a suffix

A client that waits for an echo looks at what it has received only between two reads.  So what it returns
depends on the stream and on where the reads ended: it is what was received at the first boundary between
reads, the start included, at which that ends with the suffix (`readUntil_eq_ok_iff`).

A stream that ends with the suffix is returned whole for every cutting into reads exactly when no shorter
beginning of it ends with the suffix as well.  If there is such a beginning, reads of single bytes stop
there at the latest, and the rest of the stream is left for the next call.
-/

namespace EchoLog.Client

/-! ## Cuttings and their boundaries -/

/-- Reads of at least one byte that make up a stream. -/
structure IsCutting (stream : Bytes) (reads : List Bytes) : Prop where
  total : reads.flatten = stream
  nonempty : ∀ chunk ∈ reads, chunk ≠ []

/-- What has been received at some boundary between reads, the start and the end included. -/
def IsBoundary (reads : List Bytes) (received : Bytes) : Prop :=
  ∃ done, done <+: reads ∧ received = done.flatten

/-- What has been received at the first boundary at which that ends with a suffix. -/
structure IsFirstEnd (suffix : Bytes) (reads : List Bytes) (received : Bytes) : Prop where
  boundary : IsBoundary reads received
  ends : suffix <:+ received
  shortest : ∀ other, IsBoundary reads other → suffix <:+ other → received <+: other

variable {suffix received stream r : Bytes} {reads : List Bytes} {tail : Tail}

theorem IsBoundary.isPrefix (h : IsBoundary reads r) : r <+: reads.flatten := by
  obtain ⟨done, hdone, rfl⟩ := h
  exact hdone.flatten

/-- There is one first boundary only. -/
theorem IsFirstEnd.unique (h : IsFirstEnd suffix reads r) (h' : IsFirstEnd suffix reads received) :
    r = received := by
  have hto := h.shortest _ h'.boundary h'.ends
  have hfro := h'.shortest _ h.boundary h.ends
  exact hto.eq_of_length_le hfro.length_le

/-- Reads of single bytes. -/
def singles (stream : Bytes) : List Bytes :=
  stream.map fun b => [b]

theorem flatten_singles (stream : Bytes) : (singles stream).flatten = stream :=
  List.flatMap_singleton' stream

theorem isCutting_singles (stream : Bytes) : IsCutting stream (singles stream) := by
  refine ⟨flatten_singles stream, ?_⟩
  intro chunk hchunk
  obtain ⟨b, -, rfl⟩ := List.mem_map.1 hchunk
  exact List.cons_ne_nil b []

/-- Between single bytes there is a boundary everywhere. -/
theorem isBoundary_singles {p : Bytes} (h : p <+: stream) : IsBoundary (singles stream) p :=
  ⟨singles p, h.map _, (flatten_singles p).symm⟩

/-! ## The loop -/

theorem endsWith_iff : endsWith received suffix = true ↔ suffix <:+ received :=
  List.isSuffixOf_iff_suffix

/-- What the loop can come to when it has `received` something and goes on with some reads. -/
inductive LoopEnd (suffix received : Bytes) (tail : Tail) (reads : List Bytes) :
    Except Failure Bytes × Inbound → Prop where
  /-- It stops after some of the reads, and there for the first time it may. -/
  | stopped {done rest : List Bytes} : reads = done ++ rest →
      suffix <:+ received ++ done.flatten →
      (∀ earlier, earlier <+: done → suffix <:+ received ++ earlier.flatten → earlier = done) →
      LoopEnd suffix received tail reads (.ok (received ++ done.flatten), ⟨rest, tail⟩)
  /-- It may stop nowhere. -/
  | failed : (∀ earlier, earlier <+: reads → ¬ suffix <:+ received ++ earlier.flatten) →
      LoopEnd suffix received tail reads (.error tail.echoFailure, ⟨[], tail.later⟩)

theorem loopEnd_here (h : suffix <:+ received) (tail : Tail) (reads : List Bytes) :
    LoopEnd suffix received tail reads (.ok received, ⟨reads, tail⟩) := by
  have hnothing : received ++ ([] : List Bytes).flatten = received := by
    rw [List.flatten_nil, List.append_nil]
  have hend : LoopEnd suffix received tail reads
      (.ok (received ++ ([] : List Bytes).flatten), ⟨reads, tail⟩) := by
    refine .stopped rfl (by rwa [hnothing]) ?_
    intro earlier hearlier _
    exact List.prefix_nil.1 hearlier
  rwa [hnothing] at hend

theorem append_flatten_cons (received chunk : Bytes) (reads : List Bytes) :
    received ++ (chunk :: reads).flatten = received ++ chunk ++ reads.flatten := by
  rw [List.flatten_cons, List.append_assoc]

/-- One read that is not the last. -/
theorem LoopEnd.cons (h : ¬ suffix <:+ received) {chunk : Bytes} {o : Except Failure Bytes × Inbound}
    (hend : LoopEnd suffix (received ++ chunk) tail reads o) :
    LoopEnd suffix received tail (chunk :: reads) o := by
  have hnotHere : ∀ earlier, earlier = [] → ¬ suffix <:+ received ++ earlier.flatten := by
    rintro earlier rfl
    rwa [List.flatten_nil, List.append_nil]
  cases hend with
  | @stopped done rest hreads hdone hfirst =>
      rw [← append_flatten_cons] at hdone ⊢
      refine .stopped (congrArg (chunk :: ·) hreads) hdone ?_
      intro earlier hearlier hsuffix
      rcases List.prefix_cons_iff.1 hearlier with hnil | ⟨more, rfl, hmore⟩
      · exact absurd hsuffix (hnotHere earlier hnil)
      · rw [append_flatten_cons] at hsuffix
        rw [hfirst more hmore hsuffix]
  | failed hnever =>
      refine .failed ?_
      intro earlier hearlier
      rcases List.prefix_cons_iff.1 hearlier with hnil | ⟨more, rfl, hmore⟩
      · exact hnotHere earlier hnil
      · rw [append_flatten_cons]
        exact hnever more hmore

/-- **The loop stops at the first boundary at which it may**, or fails because there is none. -/
theorem loopEnd_readOn (suffix : Bytes) (tail : Tail) (reads : List Bytes) : ∀ received,
    LoopEnd suffix received tail reads (readOn suffix received reads tail) := by
  induction reads with
  | nil =>
      intro received
      by_cases hends : suffix <:+ received
      · rw [readOn, if_pos (endsWith_iff.2 hends)]
        exact loopEnd_here hends tail []
      · rw [readOn, if_neg (mt endsWith_iff.1 hends)]
        refine .failed ?_
        intro earlier hearlier
        rwa [List.prefix_nil.1 hearlier, List.flatten_nil, List.append_nil]
  | cons chunk reads ih =>
      intro received
      by_cases hends : suffix <:+ received
      · rw [readOn, if_pos (endsWith_iff.2 hends)]
        exact loopEnd_here hends tail (chunk :: reads)
      · rw [readOn, if_neg (mt endsWith_iff.1 hends)]
        exact (ih (received ++ chunk)).cons hends

/-! ## Whole reads -/

/-- **What reading until a suffix comes to**: it returns what was received at the first boundary at which
that ends with the suffix and leaves the reads after it, or there is no such boundary and it fails. -/
theorem readUntil_cases (suffix : Bytes) (reads : List Bytes) (tail : Tail) :
    (∃ r rest, readUntil suffix ⟨reads, tail⟩ = (.ok r, ⟨rest, tail⟩) ∧ IsFirstEnd suffix reads r ∧
      r ++ rest.flatten = reads.flatten) ∨
    (readUntil suffix ⟨reads, tail⟩ = (.error tail.echoFailure, ⟨[], tail.later⟩) ∧
      ∀ other, IsBoundary reads other → ¬ suffix <:+ other) := by
  have hend := loopEnd_readOn suffix tail reads []
  rw [readUntil]
  generalize readOn suffix [] reads tail = o at hend
  cases hend with
  | @stopped done rest hreads hdone hfirst =>
      rw [List.nil_append] at hdone ⊢
      refine .inl ⟨done.flatten, rest, rfl, ⟨⟨done, ?_, rfl⟩, hdone, ?_⟩, ?_⟩
      · exact ⟨rest, hreads.symm⟩
      · rintro other ⟨earlier, hearlier, rfl⟩ hsuffix
        rcases List.prefix_or_prefix_of_prefix ⟨rest, hreads.symm⟩ hearlier with hlater | hbefore
        · exact hlater.flatten
        · rw [hfirst earlier hbefore hsuffix]
      · rw [hreads, List.flatten_append]
  | failed hnever =>
      refine .inr ⟨rfl, ?_⟩
      rintro other ⟨done, hdone, rfl⟩
      exact hnever done hdone

theorem readUntil_eq_ok_iff :
    (readUntil suffix ⟨reads, tail⟩).1 = .ok r ↔ IsFirstEnd suffix reads r := by
  rcases readUntil_cases suffix reads tail with ⟨r', rest, hread, hfirst, -⟩ | ⟨hread, hnever⟩
  · rw [hread]
    constructor
    · intro hok
      exact Except.ok.inj hok ▸ hfirst
    · intro h
      exact congrArg Except.ok (hfirst.unique h)
  · rw [hread]
    constructor
    · intro hok
      cases hok
    · intro h
      exact absurd h.ends (hnever r h.boundary)

/-- **Whether a stream is returned whole does not depend on the reads** exactly when no shorter beginning
of it ends with the suffix. -/
theorem whole_iff (hends : suffix <:+ stream) (tail : Tail) :
    (∀ reads, IsCutting stream reads → (readUntil suffix ⟨reads, tail⟩).1 = .ok stream) ↔
      ∀ p, p <+: stream → suffix <:+ p → p = stream := by
  constructor
  · intro hwhole p hp hsuffix
    have hfirst := readUntil_eq_ok_iff.1 (hwhole _ (isCutting_singles stream))
    exact hp.eq_of_length_le (hfirst.shortest p (isBoundary_singles hp) hsuffix).length_le
  · intro hnone reads hreads
    rw [readUntil_eq_ok_iff]
    refine ⟨⟨reads, List.prefix_rfl, hreads.total.symm⟩, hends, ?_⟩
    intro other hother hsuffix
    have hprefix := hother.isPrefix
    rw [hreads.total] at hprefix
    rw [hnone other hprefix hsuffix]

/-- Reads of single bytes stop before the end of a stream, if a shorter beginning of it allows. -/
theorem exists_early_end {p : Bytes} (hp : p <+: stream) (hshort : p ≠ stream) (hsuffix : suffix <:+ p)
    (tail : Tail) :
    ∃ r rest, readUntil suffix ⟨singles stream, tail⟩ = (.ok r, ⟨rest, tail⟩) ∧ r ≠ stream ∧
      r ++ rest.flatten = stream := by
  have hboundary := isBoundary_singles hp
  rcases readUntil_cases suffix (singles stream) tail with ⟨r, rest, hread, hfirst, htotal⟩ | ⟨-, hnever⟩
  · rw [flatten_singles] at htotal
    refine ⟨r, rest, hread, ?_, htotal⟩
    rintro rfl
    exact hshort (hp.eq_of_length_le (hfirst.shortest p hboundary hsuffix).length_le)
  · exact absurd hsuffix (hnever p hboundary)

/-! ## The reads of a connection -/

theorem IsCutting.cons (h : IsCutting stream reads) {chunk : Bytes} (hchunk : chunk ≠ []) :
    IsCutting (chunk ++ stream) (chunk :: reads) := by
  refine ⟨?_, ?_⟩
  · rw [List.flatten_cons, h.total]
  · intro c hc
    rcases List.mem_cons.1 hc with rfl | hc
    · exact hchunk
    · exact h.nonempty c hc

/-- However much room a buffer has, its reads cut what has arrived. -/
theorem isCutting_cutReads (fuel : Nat) :
    ∀ (received : Nat) (bytes : Bytes), IsCutting bytes (cutReads fuel received bytes) := by
  have hempty : IsCutting [] [] := ⟨rfl, fun chunk hchunk => absurd hchunk List.not_mem_nil⟩
  induction fuel with
  | zero =>
      intro received bytes
      rw [cutReads]
      cases bytes with
      | nil => exact hempty
      | cons b bytes =>
          have hone := hempty.cons (List.cons_ne_nil b bytes)
          rwa [List.append_nil] at hone
  | succ fuel ih =>
      intro received bytes
      rw [cutReads]
      cases bytes with
      | nil => exact hempty
      | cons b bytes =>
          let n := max 1 (room received)
          have htake : (b :: bytes).take n ≠ [] := by
            rw [ne_eq, List.take_eq_nil_iff, not_or]
            exact ⟨by omega, List.cons_ne_nil b bytes⟩
          have hmore := (ih (received + n) ((b :: bytes).drop n)).cons htake
          rwa [List.take_append_drop] at hmore

/-- A call on a connection returns what its reads make of it, and leaves the rest to arrive. -/
theorem Wire.of_readUntil_eq_ok {w : Wire} (h : (w.readUntil suffix).1 = .ok r) :
    IsFirstEnd suffix w.inbound.reads r ∧ r ++ (w.readUntil suffix).2.arriving = w.arriving := by
  refine ⟨readUntil_eq_ok_iff.1 h, ?_⟩
  simp only [Wire.readUntil, Wire.afterReads] at h ⊢
  rcases readUntil_cases suffix w.inbound.reads w.inbound.tail with ⟨s, rest, hread, -, htotal⟩ | ⟨hread, -⟩
  · have hcuts := isCutting_cutReads w.arriving.length 0 w.arriving
    rw [hread] at h ⊢
    cases h
    exact htotal.trans hcuts.total
  · rw [hread] at h
    cases h

/-- **What reading until a suffix means**, for every cutting of a stream into reads and whatever follows
them.  The call returns if and only if the bytes received end with the suffix at some boundary between
reads, the start included.  It then returns what was received at the first such boundary, and that and what
is left make up the stream; if there is none, it fails as the end of the stream says.  A stream that ends
with the suffix is returned whole for every cutting if and only if no shorter beginning of it ends with the
suffix; if one does, some cutting makes the call return a shorter beginning and leave the rest for the next.
The reads of a connection are such a cutting, and the connection keeps what a call leaves. -/
theorem reading_until_suffix_is_exact (suffix : Bytes) (tail : Tail) :
    (∀ stream reads, IsCutting stream reads →
      let (answer, left) := readUntil suffix ⟨reads, tail⟩
      ((∃ r, answer = .ok r) ↔ ∃ r, IsBoundary reads r ∧ suffix <:+ r) ∧
      (∀ r, answer = .ok r → IsFirstEnd suffix reads r ∧ r ++ left.reads.flatten = stream ∧
        left.tail = tail) ∧
      ((∀ r, IsBoundary reads r → ¬ suffix <:+ r) → answer = .error (match tail with
        | .ended => .connection .closedEarly
        | .silent => .client .echoTimeout
        | .reset => .io .connectionReset))) ∧
    (∀ stream, suffix <:+ stream →
      ((∀ reads, IsCutting stream reads → (readUntil suffix ⟨reads, tail⟩).1 = .ok stream) ↔
        ∀ p, p <+: stream → suffix <:+ p → p = stream) ∧
      ((∃ p, p <+: stream ∧ suffix <:+ p ∧ p ≠ stream) →
        ∃ reads r rest, IsCutting stream reads ∧
          readUntil suffix ⟨reads, tail⟩ = (.ok r, ⟨rest, tail⟩) ∧ r ≠ stream ∧
          r ++ rest.flatten = stream)) ∧
    ∀ w : Wire, IsCutting w.arriving w.inbound.reads ∧ ∀ r, (w.readUntil suffix).1 = .ok r →
      IsFirstEnd suffix w.inbound.reads r ∧ r ++ (w.readUntil suffix).2.arriving = w.arriving := by
  refine ⟨?_, ?_, ?_⟩
  · intro stream reads hreads
    rcases readUntil_cases suffix reads tail with ⟨r, rest, hread, hfirst, htotal⟩ | ⟨hread, hnever⟩
    · rw [hread]
      refine ⟨⟨fun _ => ⟨r, hfirst.boundary, hfirst.ends⟩, fun _ => ⟨r, rfl⟩⟩, ?_, ?_⟩
      · intro r' hr'
        cases hr'
        exact ⟨hfirst, htotal.trans hreads.total, rfl⟩
      · intro hnever
        exact absurd hfirst.ends (hnever r hfirst.boundary)
    · rw [hread]
      refine ⟨⟨nofun, ?_⟩, nofun, ?_⟩
      · rintro ⟨r, hboundary, hsuffix⟩
        exact absurd hsuffix (hnever r hboundary)
      · intro _
        cases tail <;> rfl
  · intro stream hends
    refine ⟨whole_iff hends tail, ?_⟩
    rintro ⟨p, hp, hsuffix, hshort⟩
    obtain ⟨r, rest, hread, hne, htotal⟩ := exists_early_end hp hshort hsuffix tail
    exact ⟨singles stream, r, rest, isCutting_singles stream, hread, hne, htotal⟩
  · intro w
    exact ⟨isCutting_cutReads .., fun r h => Wire.of_readUntil_eq_ok h⟩

/-- A log that holds one packet twice: two reads may give it whole, and single bytes give its first half. -/
theorem reading_until_suffix_is_exact_twice :
    let stream := utf8 "one\none\n"
    let suffix := utf8 "one\n"
    let reads := [utf8 "one\non", utf8 "e\n"]
    IsCutting stream reads ∧ (readUntil suffix ⟨reads, .ended⟩).1 = .ok stream ∧
      IsFirstEnd suffix reads stream ∧ suffix <:+ stream ∧
      ∃ reads r rest, IsCutting stream reads ∧
        readUntil suffix ⟨reads, .ended⟩ = (.ok r, ⟨rest, .ended⟩) ∧ r ≠ stream ∧
        r ++ rest.flatten = stream := by
  intro stream suffix reads
  have hreads : IsCutting stream reads := ⟨by decide, by decide⟩
  have hwhole : (readUntil suffix ⟨reads, .ended⟩).1 = .ok stream := by rfl
  have hends : suffix <:+ stream := by decide
  obtain ⟨hcuttings, hstreams, -⟩ := reading_until_suffix_is_exact suffix .ended
  obtain ⟨-, hgives, -⟩ := hcuttings stream reads hreads
  exact ⟨hreads, hwhole, (hgives stream hwhole).1, hends,
    (hstreams stream hends).2 ⟨suffix, by decide, List.suffix_rfl, by decide⟩⟩

end EchoLog.Client
