import RioClient.AddressRanges
import RioClient.RangeCompletion

/-!
Which texts a range is built from. Besides the grammar, a `-` at either end and
what stands behind a NUL slip through.
-/

namespace RioClient

open WinsockReference

def octetsOf (host : UInt32) : List Nat :=
  [byteOf host 3, byteOf host 2, byteOf host 1, byteOf host 0]

def dottedOctets (octets : List Nat) : Text :=
  ['.'].intercalate (octets.map (Nat.toDigits 10))

theorem dottedOctets_octetsOf (host : UInt32) : dottedOctets (octetsOf host) = dottedQuad host :=
  rfl

theorem octetsOf_lt {host : UInt32} {octet : Nat} (member : octet ∈ octetsOf host) :
    octet < 256 := by
  simp only [octetsOf, List.mem_cons, List.not_mem_nil, or_false] at member
  rcases member with rfl | rfl | rfl | rfl <;> exact byteOf_lt host _

inductive RangeText : Text → Prop
  | single (host : UInt32) : RangeText (dottedQuad host)
  | range (host : UInt32) (octets : List Nat) (some : octets ≠ []) (atMostFour : octets.length ≤ 4)
      (bytes : ∀ octet ∈ octets, octet < 256) :
      RangeText (dottedQuad host ++ '-' :: dottedOctets octets)

def Parts (range first second : Text) : Prop :=
  split range '-' = [first] ∧ second = first ∨ split range '-' = [first, second]

/-- Two parts a range is built from. An empty first part stands for 0.0.0.0, and so
does an empty second part behind it; other parts are read up to a NUL. -/
inductive Readable : Text → Text → Prop
  | nothing : Readable [] []
  | upTo {second : Text} (till : Ipv4Addr) (last : cStr second = dottedQuad till.ipHostOrder) :
      Readable [] second
  | between {first second : Text} (from_ till : Ipv4Addr)
      (front : cStr first = dottedQuad from_.ipHostOrder)
      (shared : (octetsOf from_.ipHostOrder).take (3 - second.count '.') =
        (octetsOf till.ipHostOrder).take (3 - second.count '.'))
      (last : cStr second =
        dottedOctets ((octetsOf till.ipHostOrder).drop (3 - second.count '.')))
      (ordered : from_.gt till = false) : Readable first second

def SlipsThrough (range : Text) : Prop :=
  (range.head? = some '-' ∨ range.getLast? = some '-' ∨ '\x00' ∈ range) ∧
    ∃ first second, Parts range first second ∧ Readable first second

def AcceptsOnlyGrammar (winsock : Winsock) (range : Text) : Prop :=
  (∀ built, makeIpv4Range winsock range = .ok built → RangeText range) ∧
    (¬RangeText range → ∃ what, makeIpv4Range winsock range = .error (.invalidArgument what))

theorem splitOn_dotted_append {parts : List Text} (free : ∀ part ∈ parts, '.' ∉ part)
    (rest : Text) : (dotted parts ++ rest).splitOn '.' = parts ++ rest.splitOn '.' := by
  induction parts with
  | nil => rfl
  | cons part parts ih =>
      have laterFree : ∀ later ∈ parts, '.' ∉ later :=
        fun later member => free later (List.mem_cons_of_mem part member)
      rw [dotted_cons, List.append_assoc, List.cons_append,
        List.splitOn_append_cons_self_of_not_mem (free part List.mem_cons_self), ih laterFree,
        List.cons_append]

section
variable {octets : List Nat} {symbol : Char}

theorem isDigit_of_mem_dotted (member : symbol ∈ dotted (octets.map (Nat.toDigits 10))) :
    symbol.isDigit ∨ symbol = '.' := by
  by_cases none : octets.map (Nat.toDigits 10) = []
  · rw [none] at member
    cases member
  · rw [dotted_eq_append none, List.mem_append, List.mem_singleton] at member
    rcases member with inside | dot
    · exact isDigit_of_mem_intercalate inside
    · exact .inr dot

theorem cStr_dotted_append (rest : Text) :
    cStr (dotted (octets.map (Nat.toDigits 10)) ++ rest) =
      dotted (octets.map (Nat.toDigits 10)) ++ cStr rest := by
  refine List.takeWhile_append_of_pos fun symbol member => decide_eq_true ?_
  rintro rfl
  exact absurd (isDigit_of_mem_dotted member) (by decide)

end

section
variable {host : UInt32} {count : Nat}

theorem length_take_octetsOf (few : count ≤ 3) : ((octetsOf host).take count).length = count := by
  rw [List.length_take, show (octetsOf host).length = 4 from rfl]
  omega

theorem drop_octetsOf_ne_nil (few : count ≤ 3) : (octetsOf host).drop count ≠ [] := by
  intro none
  have size := congrArg List.length none
  rw [List.length_drop, show (octetsOf host).length = 4 from rfl, List.length_nil] at size
  omega

theorem dotted_append_dottedOctets (few : count ≤ 3) :
    dotted (((octetsOf host).take count).map (Nat.toDigits 10)) ++
      dottedOctets ((octetsOf host).drop count) = dottedQuad host := by
  rw [dottedOctets, dotted_append_intercalate _ (by simpa using drop_octetsOf_ne_nil few),
    ← List.map_append, List.take_append_drop]
  rfl

end

theorem completeIp_address {first : Text} {host : UInt32} (front : cStr first = dottedQuad host)
    (second : Text) :
    completeIp first second =
      dotted (((octetsOf host).take (3 - second.count '.')).map (Nat.toDigits 10)) ++ second := by
  have few : 3 - second.count '.' ≤ 3 := Nat.sub_le _ _
  rw [completeIp]
  generalize 3 - second.count '.' = count at few ⊢
  have text : dotted (((octetsOf host).take count).map (Nat.toDigits 10)) ++
      (dottedOctets ((octetsOf host).drop count) ++ first.dropWhile (· ≠ '\x00')) = first := by
    rw [← List.append_assoc, dotted_append_dottedOctets few, ← front]
    exact List.takeWhile_append_dropWhile
  have passed := @skipDots_dotted (((octetsOf host).take count).map (Nat.toDigits 10))
    dot_not_mem_digits []
    (dottedOctets ((octetsOf host).drop count) ++ first.dropWhile (· ≠ '\x00'))
  rw [List.nil_append, List.nil_append, text, List.length_map, length_take_octetsOf few,
    List.length_nil] at passed
  rw [passed]
  conv_lhs =>
    arg 1
    arg 2
    rw [← text]
  rw [List.take_left]

theorem cStr_completeIp_iff {first second : Text} {host last : UInt32}
    (front : cStr first = dottedQuad host) :
    cStr (completeIp first second) = dottedQuad last ↔
      (octetsOf host).take (3 - second.count '.') = (octetsOf last).take (3 - second.count '.') ∧
      cStr second = dottedOctets ((octetsOf last).drop (3 - second.count '.')) := by
  have few : 3 - second.count '.' ≤ 3 := Nat.sub_le _ _
  rw [completeIp_address front, cStr_dotted_append]
  generalize 3 - second.count '.' = count at few ⊢
  constructor
  · intro read
    have kept : (((octetsOf host).take count).map (Nat.toDigits 10)).length = count := by
      rw [List.length_map, length_take_octetsOf few]
    have pieces := congrArg (List.splitOn '.') read
    rw [splitOn_dotted_append dot_not_mem_digits, splitOn_dottedQuad] at pieces
    have given := congrArg (List.drop count) pieces
    have shared := congrArg (List.take count) pieces
    rw [List.drop_left' kept, ← List.map_drop] at given
    rw [List.take_left' kept, ← List.map_take] at shared
    refine ⟨toDigits_injective.list_map shared, ?_⟩
    rw [octetsOf, dottedOctets, ← given, List.intercalate_splitOn]
  · rintro ⟨shared, given⟩
    rw [shared, given, dotted_append_dottedOctets few]

theorem completeIp_address_ne_nil {first : Text} {host : UInt32}
    (front : cStr first = dottedQuad host) (second : Text) : completeIp first second ≠ [] := by
  rw [completeIp_address front]
  intro empty
  obtain ⟨none, rfl⟩ := List.append_eq_nil_iff.mp empty
  have size := congrArg List.length none
  simp [octetsOf] at size

section
variable {winsock : Winsock} {range first second : Text}

theorem completeIp_nil (till : Text) : completeIp [] till = till := by
  rw [completeIp, List.take_nil, List.nil_append]

theorem readable_iff (standard : winsock.Standard) :
    Readable first second ↔ ∃ from_ till, Ipv4Addr.ofText winsock first = .ok from_ ∧
      Ipv4Addr.ofText winsock (completeIp first second) = .ok till ∧ from_.gt till = false := by
  constructor
  · intro readable
    cases readable with
    | nothing => exact ⟨{}, {}, rfl, rfl, rfl⟩
    | upTo till last =>
        refine ⟨{}, till, rfl, ?_, by simp [Ipv4Addr.gt]⟩
        rw [completeIp_nil]
        exact (Ipv4Addr.ofText_eq_ok_iff standard).mpr (.inr last)
    | between from_ till front shared last ordered =>
        refine ⟨from_, till, (Ipv4Addr.ofText_eq_ok_iff standard).mpr (.inr front), ?_, ordered⟩
        exact (Ipv4Addr.ofText_eq_ok_iff standard).mpr
          (.inr ((cStr_completeIp_iff front).mpr ⟨shared, last⟩))
  · rintro ⟨from_, till, left, right, ordered⟩
    rcases (Ipv4Addr.ofText_eq_ok_iff standard).mp left with ⟨rfl, rfl⟩ | front
    · rw [completeIp_nil] at right
      rcases (Ipv4Addr.ofText_eq_ok_iff standard).mp right with ⟨rfl, rfl⟩ | last
      · exact .nothing
      · exact .upTo till last
    · rcases (Ipv4Addr.ofText_eq_ok_iff standard).mp right with ⟨nothing, _⟩ | text
      · exact absurd nothing (completeIp_address_ne_nil front second)
      · obtain ⟨shared, last⟩ := (cStr_completeIp_iff front).mp text
        exact .between from_ till front shared last ordered

theorem makeIpv4Range_builds_iff (standard : winsock.Standard) :
    (∃ built, makeIpv4Range winsock range = .ok built) ↔
      ∃ first second, Parts range first second ∧ Readable first second := by
  constructor
  · rintro ⟨built, returned⟩
    obtain ⟨first, second, parts, left, right⟩ := makeRange_eq_ok returned
    exact ⟨first, second, parts,
      (readable_iff standard).mpr ⟨_, _, left, right, built.checkRange⟩⟩
  · rintro ⟨first, second, parts, readable⟩
    obtain ⟨from_, till, left, right, ordered⟩ := (readable_iff standard).mp readable
    obtain ⟨built, made, _⟩ := Range.make_of_not_greater (ipv4Element winsock) ordered
    refine ⟨built, ?_⟩
    rcases parts with ⟨parts, rfl⟩ | parts
    · simp only [makeIpv4Range, makeRange, parts, left, right]
      exact made
    · exact (makeRange_pair parts left right).trans made

theorem ofText_error {v : Text} {thrown : StdException}
    (failed : Ipv4Addr.ofText winsock v = .error thrown) :
    ∃ what, thrown = .invalidArgument what := by
  unfold Ipv4Addr.ofText at failed
  split at failed
  next => cases failed
  next =>
    split at failed
    next => cases failed
    next =>
      cases failed
      exact ⟨_, rfl⟩

theorem makeIpv4Range_error {thrown : StdException}
    (failed : makeIpv4Range winsock range = .error thrown) :
    ∃ what, thrown = .invalidArgument what := by
  have built {first till : Text}
      (failed : (Ipv4Addr.ofText winsock first >>= fun from_ => Ipv4Addr.ofText winsock till >>=
        fun till => Range.make (ipv4Element winsock) from_ till) = .error thrown) :
      ∃ what, thrown = .invalidArgument what := by
    cases left : Ipv4Addr.ofText winsock first with
    | error other =>
        rw [left] at failed
        cases failed
        exact ofText_error left
    | ok from_ =>
        rw [left, ok_bind] at failed
        cases right : Ipv4Addr.ofText winsock till with
        | error other =>
            rw [right] at failed
            cases failed
            exact ofText_error right
        | ok till =>
            rw [right, ok_bind, Range.make] at failed
            split at failed
            · cases failed
              exact ⟨_, rfl⟩
            · cases failed
  unfold makeIpv4Range makeRange at failed
  dsimp only at failed
  split at failed
  next => exact built failed
  next => exact built failed
  next =>
    cases failed
    exact ⟨_, rfl⟩

end

theorem dottedOctets_ne_nil {octets : List Nat} (some : octets ≠ []) :
    dottedOctets octets ≠ [] := by
  intro empty
  have pieces := List.splitOn_intercalate '.' (@dot_not_mem_digits octets) (by simpa using some)
  rw [← dottedOctets, empty] at pieces
  cases octets with
  | nil => exact some rfl
  | cons octet octets =>
      rw [List.splitOn_nil, List.map_cons] at pieces
      exact Nat.toDigits_ne_nil (List.cons.inj pieces).1.symm

theorem not_mem_dottedOctets {octets : List Nat} {symbol : Char}
    (other : ¬(symbol.isDigit ∨ symbol = '.')) : symbol ∉ dottedOctets octets :=
  fun member => other (isDigit_of_mem_intercalate member)

theorem RangeText.plain {range : Text} (text : RangeText range) :
    ¬(range.head? = some '-' ∨ range.getLast? = some '-' ∨ '\x00' ∈ range) := by
  have dash (octets : List Nat) : '-' ∉ dottedOctets octets := not_mem_dottedOctets (by decide)
  have nul (octets : List Nat) : '\x00' ∉ dottedOctets octets := not_mem_dottedOctets (by decide)
  cases text with
  | single host =>
      rw [← dottedOctets_octetsOf]
      rintro (head | last | inside)
      · exact dash _ (List.mem_of_head? head)
      · exact dash _ (List.mem_of_getLast? last)
      · exact nul _ inside
  | range host octets filled =>
      rw [← dottedOctets_octetsOf]
      have front : dottedOctets (octetsOf host) ≠ [] := dottedOctets_ne_nil (List.cons_ne_nil _ _)
      rintro (head | last | inside)
      · rw [List.head?_append_of_ne_nil _ front] at head
        exact dash _ (List.mem_of_head? head)
      · rw [List.getLast?_append_of_ne_nil _ (List.cons_ne_nil _ _),
          List.getLast?_cons_of_ne_nil (dottedOctets_ne_nil filled)] at last
        exact dash _ (List.mem_of_getLast? last)
      · rcases List.mem_append.mp inside with front | behind
        · exact nul _ front
        · rcases List.mem_cons.mp behind with same | behind
          · exact absurd same (by decide)
          · exact nul _ behind

theorem eq_of_parts {range first second : Text} (parts : Parts range first second)
    (ends : range.getLast? ≠ some '-') :
    range = first ∧ second = first ∨ range = first ++ '-' :: second := by
  have joined : ['-'].intercalate (split range '-') = range := by
    rcases TextFields.intercalate_fields range with whole | ended
    · exact whole
    · exact absurd (by rw [← ended, List.getLast?_concat]) ends
  rcases parts with ⟨parts, rfl⟩ | parts
  · left
    rw [parts, List.intercalate_singleton] at joined
    exact ⟨joined.symm, rfl⟩
  · right
    rw [parts, List.intercalate_cons_cons, List.intercalate_singleton, List.append_assoc,
      List.singleton_append] at joined
    exact joined.symm

theorem rangeText_of_readable {range first second : Text} (parts : Parts range first second)
    (readable : Readable first second)
    (plain : ¬(range.head? = some '-' ∨ range.getLast? = some '-' ∨ '\x00' ∈ range)) :
    RangeText range := by
  obtain ⟨head, ends, nul⟩ : range.head? ≠ some '-' ∧ range.getLast? ≠ some '-' ∧
      '\x00' ∉ range := by simpa only [not_or] using plain
  have text := eq_of_parts parts ends
  cases readable with
  | nothing =>
      rcases text with ⟨rfl, _⟩ | rfl
      · rcases parts with ⟨none, _⟩ | none
        · cases none
        · cases none
      · exact absurd rfl head
  | upTo till last =>
      rcases text with ⟨_, rfl⟩ | rfl
      · exact absurd last.symm (dottedQuad_ne_nil _)
      · exact absurd rfl head
  | between from_ till front shared last ordered =>
      rcases text with ⟨rfl, rfl⟩ | rfl
      · rw [cStr_of_plain nul] at front
        rw [front]
        exact .single _
      · rw [List.mem_append, List.mem_cons, not_or, not_or] at nul
        rw [cStr_of_plain nul.1] at front
        rw [cStr_of_plain nul.2.2] at last
        have few : 3 - second.count '.' ≤ 3 := Nat.sub_le _ _
        rw [front]
        generalize 3 - second.count '.' = count at last few
        rw [last]
        refine .range _ _ (drop_octetsOf_ne_nil few) ?_ fun octet member =>
          octetsOf_lt (List.mem_of_mem_drop member)
        rw [List.length_drop]
        exact Nat.sub_le _ _

/-- The grammar is kept for exactly the texts that do not slip through. -/
theorem acceptsOnlyGrammar_iff (winsock : Winsock) (standard : winsock.Standard) (range : Text) :
    AcceptsOnlyGrammar winsock range ↔ ¬SlipsThrough range := by
  constructor
  · rintro ⟨accepted, _⟩ ⟨odd, parts⟩
    obtain ⟨built, returned⟩ := (makeIpv4Range_builds_iff standard).mpr parts
    exact (accepted built returned).plain odd
  · intro caught
    have accepted : ∀ built, makeIpv4Range winsock range = .ok built → RangeText range := by
      intro built returned
      obtain ⟨first, second, parts, readable⟩ :=
        (makeIpv4Range_builds_iff standard).mp ⟨built, returned⟩
      by_contra other
      apply other
      refine rangeText_of_readable parts readable fun odd => ?_
      exact caught ⟨odd, first, second, parts, readable⟩
    refine ⟨accepted, fun other => ?_⟩
    cases result : makeIpv4Range winsock range with
    | ok built => exact absurd (accepted built result) other
    | error thrown =>
        obtain ⟨what, rfl⟩ := makeIpv4Range_error result
        exact ⟨what, rfl⟩

theorem acceptsOnlyGrammar_iff_two_octets :
    AcceptsOnlyGrammar referenceWinsock "192.168.1.3-2.1".toList := by
  refine (acceptsOnlyGrammar_iff referenceWinsock referenceWinsock_standard _).mpr fun slips => ?_
  exact absurd slips.1 (by decide)

/-- The `-` at the end is not noticed. -/
theorem makeIpv4Range_accepts_trailing_dash :
    (∃ built, makeIpv4Range referenceWinsock "239.5.69.2-".toList = .ok built) ∧
      ¬AcceptsOnlyGrammar referenceWinsock "239.5.69.2-".toList := by
  have built : ∃ built, makeIpv4Range referenceWinsock "239.5.69.2-".toList = .ok built := by
    refine (makeIpv4Range_builds_iff referenceWinsock_standard).mpr
      ⟨"239.5.69.2".toList, "239.5.69.2".toList, .inl ⟨by decide, rfl⟩, ?_⟩
    exact .between ⟨htonl (ofOctets 239 5 69 2)⟩ ⟨htonl (ofOctets 239 5 69 2)⟩ (by decide)
      (by decide) (by decide) (by decide)
  refine ⟨built, fun kept => ?_⟩
  obtain ⟨range, returned⟩ := built
  exact (kept.1 range returned).plain (by decide)

end RioClient
