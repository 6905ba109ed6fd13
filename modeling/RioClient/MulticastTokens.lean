import RioClient.MulticastCheck
import RioClient.RangeCompletion

/-!
The tokens of a printed address. The loop of `isValidMulticastIp` cuts them off
the front of the text one by one; they are the octets, and put together again
they are the address.
-/

namespace RioClient

open WinsockReference

/-- The `while` loop of `isValidMulticastIp` and the `push_back` after it. -/
def tokenLoop (mcipstr : Text) (intTokens : List Int32) : Except StdException (List Int32) :=
  match _located : findFrom mcipstr '.' 0 with
  | some pos => do
      let token ← stoi (mcipstr.take pos)
      tokenLoop (mcipstr.drop (pos + 1)) (intTokens ++ [token])
  | none => do
      let token ← stoi mcipstr
      return intTokens ++ [token]
termination_by mcipstr.length
decreasing_by
  have inside := findFrom_lt _located
  rw [List.length_drop]
  omega

theorem tokenLoop_of_free {part : Text} (free : '.' ∉ part) (intTokens : List Int32) :
    tokenLoop part intTokens = (stoi part).map fun token => intTokens ++ [token] := by
  rw [tokenLoop]
  split
  · rename_i pos found
    rw [findFrom_eq_none free] at found
    cases found
  · cases stoi part <;> rfl

theorem tokenLoop_append {part : Text} (free : '.' ∉ part) (rest : Text)
    (intTokens : List Int32) :
    tokenLoop (part ++ '.' :: rest) intTokens =
      stoi part >>= fun token => tokenLoop rest (intTokens ++ [token]) := by
  have located : findFrom (part ++ '.' :: rest) '.' 0 = some part.length := by
    simpa using @findFrom_append '.' [] part rest free
  rw [tokenLoop]
  split
  · rename_i pos found
    rw [located] at found
    cases found
    have remaining : (part ++ '.' :: rest).drop (part.length + 1) = rest := by simp
    rw [List.take_left, remaining]
  · rename_i missing
    rw [located] at missing
    cases missing

theorem tokenLoop_eq (mcipstr : Text) (intTokens : List Int32) :
    tokenLoop mcipstr intTokens =
      ((mcipstr.splitOn '.').mapM stoi).map fun tokens => intTokens ++ tokens := by
  induction mcipstr using TextFields.cutInduction '.' generalizing intTokens with
  | whole part free =>
      rw [tokenLoop_of_free free, List.splitOn_eq_singleton free, List.mapM_cons, List.mapM_nil]
      cases stoi part <;> rfl
  | cut part rest free ih =>
      rw [tokenLoop_append free, List.splitOn_append_cons_self_of_not_mem free, List.mapM_cons]
      cases stoi part with
      | error thrown => rfl
      | ok token =>
          rw [ok_bind, ok_bind, ih]
          cases (rest.splitOn '.').mapM stoi with
          | error thrown => rfl
          | ok tokens => simp [Except.map, pure, Except.pure]

theorem isValidMulticastIp_cons (winsock : Winsock) (ip : Ipv4Addr) (rest : List Ipv4Addr) :
    isValidMulticastIp winsock (ip :: rest) = do
      let intTokens ← tokenLoop (ip.str winsock) []
      if isValidTokens intTokens then isValidMulticastIp winsock rest else return false := by
  rw [isValidMulticastIp, tokenLoop_eq]
  cases ((ip.str winsock).splitOn '.').mapM stoi <;> rfl

theorem tokenLoop_str {winsock : Winsock}
    (prints : ∀ ip, winsock.inetNtop ip = dottedQuad (ntohl ip)) (ip : Ipv4Addr) :
    ∃ intTokens, tokenLoop (ip.str winsock) [] = .ok intTokens ∧ intTokens.length = 4 ∧
      assembleIp intTokens 0 = some ip.ipHostOrder := by
  refine ⟨[byteOf ip.ipHostOrder 3, byteOf ip.ipHostOrder 2, byteOf ip.ipHostOrder 1,
    byteOf ip.ipHostOrder 0].map Int32.ofNat, ?_, by simp, ?_⟩
  · rw [tokenLoop_eq, intTokens_str prints]
    rfl
  · rw [assembleIp_bytes (byteOf_lt _ 3) (byteOf_lt _ 2) (byteOf_lt _ 1) (byteOf_lt _ 0),
      ofOctets_byteOf]

/-- Where `inet_ntop` writes the four octets, exactly the vectors of multicast
addresses pass; the tokens that decide it are those of the loop, and no octet
of an address is lost on the way. -/
theorem isValidMulticastIp_exact (winsock : Winsock)
    (prints : ∀ ip, winsock.inetNtop ip = dottedQuad (ntohl ip)) :
    (∀ ipVect : List Ipv4Addr, ∃ valid, isValidMulticastIp winsock ipVect = .ok valid ∧
      (valid = true ↔ ∀ ip ∈ ipVect, minMcIp.toNat ≤ ip.ipHostOrder.toNat ∧
        ip.ipHostOrder.toNat ≤ maxMcIp.toNat)) ∧
    (∀ (ip : Ipv4Addr) (rest : List Ipv4Addr), isValidMulticastIp winsock (ip :: rest) = do
      let intTokens ← tokenLoop (ip.str winsock) []
      if isValidTokens intTokens then isValidMulticastIp winsock rest else return false) ∧
    ∀ ip : Ipv4Addr, ∃ intTokens, tokenLoop (ip.str winsock) [] = .ok intTokens ∧
      intTokens.length = 4 ∧ assembleIp intTokens 0 = some ip.ipHostOrder := by
  refine ⟨?_, isValidMulticastIp_cons winsock, ?_⟩
  · intro ipVect
    refine ⟨_, isValidMulticastIp_eq prints ipVect, ?_⟩
    rw [List.all_eq_true]
    refine forall₂_congr fun ip _ => ?_
    rw [decide_eq_true_iff, Ipv4Addr.IsMulticast, UInt32.le_iff_toNat_le,
      UInt32.le_iff_toNat_le, toNat_minMcIp, toNat_maxMcIp]
  · intro ip
    exact tokenLoop_str prints ip

/-- The two ends of the range with an address between them, and one that is past it. -/
theorem isValidMulticastIp_exact_ends :
    isValidMulticastIp referenceWinsock [⟨htonl (ofOctets 224 0 0 1)⟩,
      ⟨htonl (ofOctets 239 5 69 2)⟩, ⟨htonl (ofOctets 239 255 255 255)⟩] = .ok true ∧
    isValidMulticastIp referenceWinsock [⟨htonl (ofOctets 239 5 69 2)⟩,
      ⟨htonl (ofOctets 240 0 0 0)⟩] = .ok false := by
  have exact := (isValidMulticastIp_exact referenceWinsock fun _ => rfl).1
  constructor
  · obtain ⟨valid, read, passes⟩ := exact [⟨htonl (ofOctets 224 0 0 1)⟩,
      ⟨htonl (ofOctets 239 5 69 2)⟩, ⟨htonl (ofOctets 239 255 255 255)⟩]
    rw [read, passes.mpr (by decide)]
  · obtain ⟨valid, read, passes⟩ := exact [⟨htonl (ofOctets 239 5 69 2)⟩,
      ⟨htonl (ofOctets 240 0 0 0)⟩]
    have fails : valid ≠ true := passes.not.mpr (by decide)
    rw [read, Bool.eq_false_of_not_eq_true fails]

end RioClient
