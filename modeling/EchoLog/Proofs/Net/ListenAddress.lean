import EchoLog.Proofs.Net.Spelling
import EchoLog.Service.Start
/-!
# The address to listen on

The text of the address to listen on is the host, a colon and the port, and the host may have colons of its
own.  It is read back as it was meant: behind a dotted quad or a closing bracket the colon is the only one
that can stand there, and after the groups of an IPv6 address without brackets it is the last one, so what
is before it is all of the address and what follows is the port (`Endpoint.resolve_text`).
-/

namespace EchoLog

namespace Ipv6

/-- Each text of an IPv6 address has a colon, and only digits before the first one. -/
theorem IsText.colon {a : Ipv6} {cs : List Char} (h : a.IsText cs) :
    ∃ digits rest, cs = digits ++ ':' :: rest ∧ ∀ c ∈ digits, isDigitOf 16 c = true := by
  cases h with
  | whole h =>
      have height := a.eight
      generalize a.groups = groups at h height
      cases h with
      | group h => cases height
      | quad q => cases height
      | more h hrest => exact ⟨_, _, rfl, h.digits⟩
  | compressed hgroups hbefore hafter =>
      cases hbefore with
      | empty => exact ⟨[], _, rfl, List.forall_mem_nil _⟩
      | run hrun =>
          cases hrun with
          | group h => exact ⟨_, _, rfl, h.digits⟩
          | more h hrest => exact ⟨_, _, List.append_assoc _ _ _, h.digits⟩

end Ipv6

namespace Net

/-! ## Ports -/

theorem readPort (port : UInt16) :
    readNumber portForm (Nat.toDigits 10 port.toNat) = some (port.toNat, []) :=
  (readNumber_eq_some_iff (by decide) (by decide)).2
    ⟨_, (List.append_nil _).symm, portForm_admits port, nofun⟩

theorem port?_toDigits (port : UInt16) : port? (Nat.toDigits 10 port.toNat) = some port := by
  unfold port?
  split
  · rename_i rest hplus
    have hdigit : isDigitOf 10 '+' = true :=
      isDigitOf_toDigits (by decide) (by decide) '+' (hplus ▸ List.mem_cons_self)
    cases hdigit
  · simp only [whole_eq_some_iff.2 (readPort port), Option.map_some, Nat.toUInt16_eq,
      UInt16.ofNat_toNat]

/-! ## The last colon -/

theorem splitLast_eq_none {c : Char} {cs : List Char} (h : c ∉ cs) : splitLast c cs = none := by
  induction cs with
  | nil => rfl
  | cons x cs ih =>
      obtain ⟨hx, hcs⟩ := not_or.1 (mt List.mem_cons.2 h)
      rw [splitLast, ih hcs]
      exact if_neg (Ne.symm hx)

theorem splitLast_append {c : Char} {after : List Char} (h : c ∉ after) (before : List Char) :
    splitLast c (before ++ c :: after) = some (before, after) := by
  induction before with
  | nil =>
      rw [List.nil_append, splitLast, splitLast_eq_none h]
      exact if_pos rfl
  | cons x before ih => rw [List.cons_append, splitLast, ih]

/-- No number is read past a colon. -/
theorem colon_mem_of_readNumber {form : NumberForm} (hone : 1 < form.base) (hbase : form.base ≤ 16)
    {cs rest : List Char} {n : Nat} (h : readNumber form cs = some (n, rest)) (hcolon : ':' ∈ cs) :
    ':' ∈ rest := by
  obtain ⟨digits, rfl, hdigits, -⟩ := (readNumber_eq_some_iff hone hbase).1 h
  refine (List.mem_append.1 hcolon).resolve_left fun hmem => ?_
  have hdigit := isDigitOf_of_le hbase
    (((isNumeral_iff hone hbase).1 hdigits.numeral).2.1 ':' hmem)
  cases hdigit

theorem colon_mem_of_readHostPart {cs rest : List Char} {n : Nat}
    (h : readHostPart cs = some (n, rest)) (hcolon : ':' ∈ cs) : ':' ∈ rest := by
  unfold readHostPart at h
  split at h
  · exact colon_mem_of_readNumber (by decide) (by decide) h (by simpa using hcolon)
  · exact colon_mem_of_readNumber (by decide) (by decide) h (by simpa using hcolon)
  · exact colon_mem_of_readNumber (by decide) (by decide) h hcolon
  · exact colon_mem_of_readNumber (by decide) (by decide) h hcolon

/-- A host with a colon is no IPv4 address. -/
theorem readHostParts_eq_none {cs : List Char} (hcolon : ':' ∈ cs) (left sofar : Nat) :
    readHostParts left sofar cs = none := by
  induction left generalizing sofar cs with
  | zero => rfl
  | succ left ih =>
      rw [readHostParts]
      split
      · rfl
      · rename_i hpart
        cases colon_mem_of_readHostPart hpart hcolon
      · rename_i hpart
        have hrest := colon_mem_of_readHostPart hpart hcolon
        rw [ih (by simpa using hrest), ite_self]
      · rfl

theorem numericHost?_text {a : Ipv6} {cs : List Char} (h : a.IsText cs) :
    numericHost? cs = some (.v6 a, 0) := by
  obtain ⟨digits, rest, rfl, -⟩ := h.colon
  have hread := readIpv6_text h .nothing
  rw [List.append_nil] at hread
  rw [numericHost?, readHostParts_eq_none (List.mem_append_right _ List.mem_cons_self)]
  simp [whole, hread, readScope]

/-! ## Endpoints -/

theorem readQuadEndpoint_text (q : Ipv4) (port : UInt16) :
    readQuadEndpoint (q.text.toList ++ ':' :: Nat.toDigits 10 port.toNat) = some (⟨.v4 q, port, 0⟩, []) := by
  have hquad : readQuad (q.text.toList ++ ':' :: Nat.toDigits 10 port.toNat) = some (q, _) :=
    readQuad_eq_some_iff.2 ⟨rfl, ends_cons _ rfl⟩
  simp [readQuadEndpoint, hquad, readChar, readPort]

theorem readBracketEndpoint_text {a : Ipv6} {cs : List Char} (h : a.IsText cs) (port : UInt16) :
    readBracketEndpoint ('[' :: (cs ++ ']' :: ':' :: Nat.toDigits 10 port.toNat)) =
      some (⟨.v6 a, port, 0⟩, []) := by
  have hread := readIpv6_text h (.bracket (':' :: Nat.toDigits 10 port.toNat))
  simp [readBracketEndpoint, readChar, hread, readScope, readPort]

theorem whole_readQuadEndpoint_eq_none {cs : List Char} (h : readQuad cs = none) :
    whole readQuadEndpoint cs = none := by
  simp [whole, readQuadEndpoint, h]

/-- Neither strict form has a colon after the first digits of all. -/
theorem ofText?_eq_none {digits rest : List Char} (hdigits : ∀ c ∈ digits, isDigitOf 16 c = true)
    {address : String} (haddress : address.toList = digits ++ ':' :: rest) :
    Endpoint.ofText? address = none := by
  have hquad : readQuad (digits ++ ':' :: rest) = none :=
    readQuad_eq_none hdigits (ends_cons rest rfl) (by simp)
  have hbracket : readChar '[' (digits ++ ':' :: rest) = none := by
    cases digits with
    | nil => rfl
    | cons c digits =>
        rw [List.cons_append, readChar, if_neg]
        rintro rfl
        cases hdigits '[' List.mem_cons_self
  rw [Endpoint.ofText?, haddress, whole_readQuadEndpoint_eq_none hquad]
  simp [whole, readBracketEndpoint, hbracket]

end Net

namespace Endpoint

/-- **The address of a host and a port names them.** -/
theorem resolve_text {ip : IpAddress} {host : List Char} (h : ip.IsText host) (port : UInt16)
    {address : String} (haddress : address.toList = host ++ ':' :: Nat.toDigits 10 port.toNat) :
    resolve address = .ok ⟨ip, port, 0⟩ := by
  cases h with
  | quad q =>
      rw [resolve, ofText?, haddress, Net.whole_eq_some_iff.2 (Net.readQuadEndpoint_text q port)]
      rfl
  | @bracketed _ cs h =>
      rw [List.append_assoc, List.cons_append, List.singleton_append] at haddress
      have hquad : Net.readQuad ('[' :: (cs ++ ']' :: ':' :: Nat.toDigits 10 port.toNat)) = none :=
        Net.readQuad_eq_none (List.forall_mem_nil _) (Net.ends_cons _ rfl) (by simp)
      rw [resolve, ofText?, haddress, Net.whole_readQuadEndpoint_eq_none hquad,
        Net.whole_eq_some_iff.2 (Net.readBracketEndpoint_text h port)]
      rfl
  | bare h =>
      obtain ⟨digits, rest, hhost, hdigits⟩ := h.colon
      have hstrict : ofText? address = none :=
        Net.ofText?_eq_none hdigits (by rw [haddress, hhost, List.append_assoc, List.cons_append])
      have hlast : ':' ∉ Nat.toDigits 10 port.toNat := fun hcolon => by
        cases isDigitOf_toDigits (by decide) (by decide) ':' hcolon
      simp only [resolve, hstrict, haddress, Net.splitLast_append hlast, Net.port?_toDigits,
        Net.numericHost?_text h]

end Endpoint

/-- **The address to listen on is the host and the port of the settings**, for each text of each IP address
and every port, with a host that knows addresses of numbers. -/
theorem Host.resolve_listenAddress {host : Host}
    (hnumbers : ∀ address endpoint, Endpoint.resolve address = .ok endpoint →
      ∃ others, host.lookup address = .ok (endpoint :: others))
    {settings : Settings} {ip : IpAddress} (h : ip.IsText settings.server.bindAddress.toList) :
    host.resolve settings.listenAddress = .ok ⟨ip, settings.server.port, 0⟩ := by
  have haddress : settings.listenAddress.toList =
      settings.server.bindAddress.toList ++ ':' :: Nat.toDigits 10 settings.server.port.toNat := by
    simp [Settings.listenAddress, numeral]
  have hresolve := Endpoint.resolve_text h settings.server.port haddress
  obtain ⟨others, hlookup⟩ := hnumbers _ _ hresolve
  rw [resolve, hlookup]

/-- The end of this address, from the quad on, would be one by itself. -/
theorem Host.resolve_listenAddress_of_groups :
    let settings : Settings := { server := { bindAddress := "1:2:00aB::1.2.3.4", port := 65535 } }
    let ip : IpAddress := .v6 ⟨[1, 2, 0xab, 0, 0, 0, 0x102, 0x304], rfl⟩
    (∀ address endpoint, Endpoint.resolve address = .ok endpoint →
      ∃ others, ({} : Host).lookup address = .ok (endpoint :: others)) ∧
    ip.IsText settings.server.bindAddress.toList ∧
    ({} : Host).resolve settings.listenAddress = .ok ⟨ip, 65535, 0⟩ := by
  intro settings ip
  have hnumbers : ∀ address endpoint, Endpoint.resolve address = .ok endpoint →
      ∃ others, ({} : Host).lookup address = .ok (endpoint :: others) :=
    fun address endpoint h => ⟨[], congrArg (Except.map ([·])) h⟩
  have htext : ip.IsText settings.server.bindAddress.toList :=
    .bare (Net.whole_readIpv6_iff.1 (by decide))
  exact ⟨hnumbers, htext, Host.resolve_listenAddress hnumbers htext⟩

end EchoLog
