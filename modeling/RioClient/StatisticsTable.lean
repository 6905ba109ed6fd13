import RioClient.Addresses
import RioClient.AlignedColumns
import RioClient.GroupTotals
import RioClient.TextFields
import RioClient.WinsockReference

/-!
The tables that `GroupStatsPrint` writes when a session is over, and how they are
read back: the rows always can be, the totals as long as the columns stay apart.
-/

namespace RioClient

open AlignedColumns TextFields

def decimal (value : UInt64) : Text := Nat.toDigits 10 value.toNat

/-- `gap` and then `std::setw(width)` with a number. -/
def column (gap : Text) (width : Nat) (value : UInt64) : Cell Char :=
  ⟨gap, width, decimal value⟩

def printed (cells : List (Cell Char)) : Text := cells.flatMap (Cell.print ' ')

namespace RioConsumer

def heading : Text :=
  "  Group           Packets        Bytes      Last Seq   OutOfOrder    Drops".toList

def rule : Text := List.replicate 77 '-'

def columns (value : McGroupStats) : List (Cell Char) :=
  [column ['\t'] 10 value.packets, column [' ', ' '] 12 value.bytes,
    column [' ', ' '] 10 value.sequence, column [' ', ' '] 10 value.outOfOrder,
    column [' ', ' '] 10 value.rxDropped]

def row (winsock : Winsock) (key : UInt32) (value : McGroupStats) : Text :=
  winsock.inetNtop key ++ printed (columns value)

/-- No gap is printed before the drops. -/
def totalColumns (totals : TotalStats) : List (Cell Char) :=
  [column ['\t', '\t'] 10 totals.totalPackets, column [' ', ' '] 12 totals.totalBytes,
    column [' ', ' ', ' ', ' '] 20 totals.totalOutOfOrder, column [] 12 totals.totalDrops]

def totalRow (totals : TotalStats) : Text := "Totals:".toList ++ printed (totalColumns totals)

def printGroup (winsock : Winsock) (printed : Text × TotalStats) (key : UInt32)
    (value : McGroupStats) : Text × TotalStats :=
  (printed.1 ++ row winsock key value ++ ['\n'], printed.2.add value)

def groupStatsPrint (winsock : Winsock) (stats : McGroupStatsMap) : Text :=
  let (rows, totals) := stats.foldl (printGroup winsock) ([], {})
  ['\n'] ++ heading ++ ['\n'] ++ rule ++ ['\n'] ++ rows ++ rule ++ ['\n'] ++
    totalRow totals ++ ['\n'] ++ ['\n']

end RioConsumer

namespace RioProducer

def heading : Text := "  Group           Packets        Bytes      Last Seq   ".toList

def rule : Text := List.replicate 57 '-'

def columns (value : McGroupStats) : List (Cell Char) :=
  [column ['\t'] 10 value.packets, column [' ', ' '] 12 value.bytes,
    column [' ', ' '] 10 value.sequence]

def row (winsock : Winsock) (key : UInt32) (value : McGroupStats) : Text :=
  winsock.inetNtop key ++ printed (columns value)

def printGroup (winsock : Winsock) (rows : Text) (key : UInt32) (value : McGroupStats) : Text :=
  rows ++ row winsock key value ++ ['\n']

def groupStatsPrint (winsock : Winsock) (stats : McGroupStatsMap) : Text :=
  let rows := stats.foldl (printGroup winsock) []
  ['\n'] ++ heading ++ ['\n'] ++ rule ++ ['\n'] ++ rows ++ ['\n']

end RioProducer

def isBlank (symbol : Char) : Bool := symbol = ' ' || symbol = '\t'

def readRow (winsock : Winsock) (line : Text) : Option (UInt32 × List Nat) :=
  match words isBlank line with
  | [] => none
  | address :: figures => (winsock.inetPton address).map fun group =>
      (group, figures.map fun figure => Nat.ofDigitChars 10 figure 0)

def readTable (winsock : Winsock) (table : Text) : List (UInt32 × List Nat) :=
  (fields table '\n').filterMap (readRow winsock)

theorem isWord_of_digits {text : Text} (present : text ≠ [])
    (digits : ∀ symbol ∈ text, symbol.isDigit ∨ symbol = '.') : IsWord isBlank text := by
  refine ⟨present, fun symbol member => ?_⟩
  rcases digits symbol member with digit | rfl
  · rw [isBlank, Bool.or_eq_false_iff, decide_eq_false_iff_not, decide_eq_false_iff_not]
    constructor <;> rintro rfl <;> exact absurd digit (by decide)
  · rfl

theorem isWord_decimal (value : UInt64) : IsWord isBlank (decimal value) :=
  isWord_of_digits Nat.toDigits_ne_nil fun _ member =>
    .inl (Nat.isDigit_of_mem_toDigits (by decide) (by decide) member)

theorem isWord_dottedQuad (host : UInt32) : IsWord isBlank (dottedQuad host) :=
  isWord_of_digits (dottedQuad_ne_nil host) fun _ member => isDigit_of_mem_dottedQuad member

structure Numeric (cell : Cell Char) : Prop where
  gap : ∀ symbol ∈ cell.gap, isBlank symbol = true
  text : ∃ value, cell.text = decimal value

theorem numeric_column {gap : Text} (blanks : gap.all isBlank = true) (width : Nat)
    (value : UInt64) : Numeric (column gap width value) :=
  ⟨List.all_eq_true.mp blanks, value, rfl⟩

section Reading

variable {winsock : Winsock} {first line : Text} {cells : List (Cell Char)}

theorem words_printed_iff (word : IsWord isBlank first)
    (numeric : ∀ cell ∈ cells, Numeric cell) :
    words isBlank (first ++ printed cells) = first :: cells.map Cell.text ↔
      ∀ cell ∈ cells, cell.Apart := by
  rw [words, wordsFrom_append word.2, List.nil_append]
  refine wordsFrom_cells_iff rfl (fun cell member => (numeric cell member).gap) ?_ word.1
  intro cell member
  obtain ⟨value, text⟩ := (numeric cell member).text
  rw [text]
  exact isWord_decimal value

theorem newline_not_mem_printed (numeric : ∀ cell ∈ cells, Numeric cell) :
    '\n' ∉ printed cells := by
  intro member
  obtain ⟨cell, inside, member⟩ := List.mem_flatMap.mp member
  obtain ⟨blanks, value, text⟩ := numeric cell inside
  rw [Cell.print, padLeft, List.mem_append, List.mem_append] at member
  rcases member with between | padding | digit
  · exact absurd (blanks _ between) (by decide)
  · exact absurd (List.eq_of_mem_replicate padding) (by decide)
  · rw [text] at digit
    exact absurd (Nat.isDigit_of_mem_toDigits (by decide) (by decide) digit) (by decide)

theorem newline_not_mem_row (standard : winsock.Standard) (group : UInt32)
    (numeric : ∀ cell ∈ cells, Numeric cell) :
    '\n' ∉ winsock.inetNtop group ++ printed cells := by
  rw [standard.ntop, List.mem_append]
  rintro (address | figures)
  · exact absurd (isDigit_of_mem_dottedQuad address) (by decide)
  · exact newline_not_mem_printed numeric figures

theorem readRow_printed (standard : winsock.Standard) (group : UInt32)
    (numeric : ∀ cell ∈ cells, Numeric cell) (apart : ∀ cell ∈ cells, cell.gap ≠ []) :
    readRow winsock (winsock.inetNtop group ++ printed cells) =
      some (group, cells.map fun cell => Nat.ofDigitChars 10 cell.text 0) := by
  have own : winsock.inetPton (dottedQuad (ntohl group)) = some group :=
    (standard.pton _ _).mpr rfl
  have read := (words_printed_iff (isWord_dottedQuad (ntohl group)) numeric).mpr
    fun cell member => .inl (apart cell member)
  rw [readRow, standard.ntop, read]
  simp only [own, Option.map_some, List.map_map]
  rfl

theorem readRow_eq_none (standard : winsock.Standard) {others : List Text} {symbol : Char}
    (read : words isBlank line = first :: others) (member : symbol ∈ first)
    (foreign : ¬symbol.isDigit ∧ symbol ≠ '.') : readRow winsock line = none := by
  have unparsed : winsock.inetPton first = none := by
    cases parsed : winsock.inetPton first with
    | none => rfl
    | some group =>
        rw [(standard.pton _ _).mp parsed] at member
        rcases isDigit_of_mem_dottedQuad member with digit | dot
        · exact absurd digit foreign.1
        · exact absurd dot foreign.2
  rw [readRow, read]
  simp only [unparsed, Option.map_none]

theorem readRow_rule (standard : winsock.Standard) {width : Nat} (present : 0 < width) :
    readRow winsock (List.replicate width '-') = none := by
  have word : IsWord isBlank (List.replicate width '-') := by
    refine ⟨fun empty => ?_, fun symbol member => ?_⟩
    · rw [List.replicate_eq_nil_iff] at empty
      omega
    · rw [List.eq_of_mem_replicate member]
      rfl
  have split := @words_printed_iff _ [] word nofun
  rw [printed, List.flatMap_nil, List.append_nil] at split
  exact readRow_eq_none standard (split.mpr nofun)
    (List.mem_replicate.mpr ⟨Nat.pos_iff_ne_zero.mp present, rfl⟩)
    (by decide : ¬ '-'.isDigit ∧ '-' ≠ '.')

theorem readTable_lines {lines : List Text} (free : ∀ line ∈ lines, '\n' ∉ line) :
    readTable winsock (lines.flatMap (· ++ ['\n'])) = lines.filterMap (readRow winsock) := by
  have split := @fields_flatMap_delim _ _ _ [] lines free
  rw [List.append_nil] at split
  rw [readTable, split, fields, getlines, List.isEmpty_nil, if_pos rfl, List.append_nil]

theorem filterMap_rows {row : UInt32 → McGroupStats → Text} {figures : McGroupStats → List Nat}
    (read : ∀ key value, readRow winsock (row key value) = some (key, figures value))
    (entries : List (UInt32 × McGroupStats)) :
    (entries.map fun entry => row entry.1 entry.2).filterMap (readRow winsock) =
      entries.map fun entry => (entry.1, figures entry.2) := by
  induction entries with
  | nil => rfl
  | cons entry entries ih =>
      rw [List.map_cons, List.filterMap_cons, read, List.map_cons]
      exact congrArg _ ih

end Reading

namespace RioConsumer

def figures (value : McGroupStats) : List Nat :=
  [value.packets.toNat, value.bytes.toNat, value.sequence.toNat, value.outOfOrder.toNat,
    value.rxDropped.toNat]

theorem numeric_columns (value : McGroupStats) : ∀ cell ∈ columns value, Numeric cell := by
  simp only [columns, List.forall_mem_cons, List.not_mem_nil, false_imp_iff, implies_true,
    and_true]
  refine ⟨?_, ?_, ?_, ?_, ?_⟩ <;> exact numeric_column rfl _ _

theorem readRow_row {winsock : Winsock} (standard : winsock.Standard) (key : UInt32)
    (value : McGroupStats) :
    readRow winsock (row winsock key value) = some (key, figures value) := by
  rw [row, readRow_printed standard key (numeric_columns value) (by simp [columns, column])]
  simp [columns, column, decimal, figures, Nat.ofDigitChars_ten_toDigits]

theorem numeric_totalColumns (totals : TotalStats) :
    ∀ cell ∈ totalColumns totals, Numeric cell := by
  simp only [totalColumns, List.forall_mem_cons, List.not_mem_nil, false_imp_iff, implies_true,
    and_true]
  refine ⟨?_, ?_, ?_, ?_⟩ <;> exact numeric_column rfl _ _

/-- Twelve digits or more in the drops run into the number before. -/
theorem words_totalRow_iff (totals : TotalStats) :
    words isBlank (totalRow totals) =
        "Totals:".toList :: [decimal totals.totalPackets, decimal totals.totalBytes,
          decimal totals.totalOutOfOrder, decimal totals.totalDrops] ↔
      totals.totalDrops.toNat < 10 ^ 11 := by
  have title : IsWord isBlank "Totals:".toList := by decide +kernel
  have short : (decimal totals.totalDrops).length < 12 ↔ totals.totalDrops.toNat < 10 ^ 11 := by
    rw [decimal, ← @Nat.length_toDigits_le_iff 10 _ 11 (by decide) (by decide)]
    exact Nat.lt_succ_iff
  have texts : [decimal totals.totalPackets, decimal totals.totalBytes,
      decimal totals.totalOutOfOrder, decimal totals.totalDrops] =
        (totalColumns totals).map Cell.text := rfl
  unfold totalRow
  rw [texts, words_printed_iff title (numeric_totalColumns totals), ← short]
  simp [totalColumns, column, Cell.Apart]

theorem readRow_totalRow {winsock : Winsock} (standard : winsock.Standard) (totals : TotalStats) :
    readRow winsock (totalRow totals) = none := by
  have title : IsWord isBlank "Totals:".toList := by decide +kernel
  obtain ⟨more, others, read⟩ := @wordsFrom_head _ isBlank "Totals:".toList
    (printed (totalColumns totals)) title.1
  have split : words isBlank (totalRow totals) = ("Totals:".toList ++ more) :: others := by
    unfold totalRow words
    rw [wordsFrom_append title.2, List.nil_append, read]
  exact readRow_eq_none standard split (List.mem_append_left more (List.mem_of_mem_head? rfl))
    (by decide : ¬ 'T'.isDigit ∧ 'T' ≠ '.')

theorem newline_not_mem_totalRow (totals : TotalStats) : '\n' ∉ totalRow totals := by
  unfold totalRow
  rw [List.mem_append]
  rintro (title | figures)
  · exact absurd title (by decide)
  · exact newline_not_mem_printed (numeric_totalColumns totals) figures

theorem foldl_printGroup (winsock : Winsock) (entries : List (UInt32 × McGroupStats)) (rows : Text)
    (totals : TotalStats) :
    entries.foldl (fun printed entry => printGroup winsock printed entry.1 entry.2)
        (rows, totals) =
      (rows ++ entries.flatMap (fun entry => row winsock entry.1 entry.2 ++ ['\n']),
        entries.foldl (fun totals entry => totals.add entry.2) totals) := by
  induction entries generalizing rows totals with
  | nil => simp
  | cons entry entries ih =>
      rw [List.foldl_cons, printGroup, ih, List.flatMap_cons, List.foldl_cons, List.append_assoc,
        List.append_assoc, List.append_assoc]

theorem groupStatsPrint_eq (winsock : Winsock) (stats : McGroupStatsMap) :
    groupStatsPrint winsock stats =
      ([[], heading, rule] ++ stats.toList.map (fun entry => row winsock entry.1 entry.2) ++
        [rule, totalRow (getMcTotals stats), []]).flatMap (· ++ ['\n']) := by
  have ran := foldl_printGroup winsock stats.toList [] {}
  have totals : getMcTotals stats =
      stats.toList.foldl (fun totals entry => totals.add entry.2) {} :=
    Std.TreeMap.foldl_eq_foldl_toList
  rw [← Std.TreeMap.foldl_eq_foldl_toList, List.nil_append, ← totals] at ran
  unfold groupStatsPrint
  rw [ran]
  simp only [List.flatMap_append, List.flatMap_map, List.flatMap_cons, List.flatMap_nil,
    List.append_assoc, List.append_nil, List.nil_append, List.cons_append]

theorem words_heading : words isBlank heading = "Group".toList :: ["Packets".toList,
      "Bytes".toList, "Last".toList, "Seq".toList, "OutOfOrder".toList, "Drops".toList] ∧
    '\n' ∉ heading := by decide +kernel

theorem readRow_heading {winsock : Winsock} (standard : winsock.Standard) :
    readRow winsock heading = none :=
  readRow_eq_none standard words_heading.1 (List.mem_of_mem_head? rfl)
    (by decide : ¬ 'G'.isDigit ∧ 'G' ≠ '.')

theorem newline_not_mem_lines {winsock : Winsock} (standard : winsock.Standard)
    (stats : McGroupStatsMap) :
    ∀ line ∈ [[], heading, rule] ++ stats.toList.map (fun entry => row winsock entry.1 entry.2) ++
      [rule, totalRow (getMcTotals stats), []], '\n' ∉ line := by
  have dashes : '\n' ∉ rule := fun member =>
    absurd (List.eq_of_mem_replicate member) (by decide)
  intro line member
  rw [List.mem_append, List.mem_append] at member
  rcases member with (above | inside) | below
  · simp only [List.mem_cons, List.not_mem_nil, or_false] at above
    rcases above with rfl | rfl | rfl
    · exact List.not_mem_nil
    · exact words_heading.2
    · exact dashes
  · obtain ⟨entry, -, rfl⟩ := List.mem_map.mp inside
    exact newline_not_mem_row standard entry.1 (numeric_columns entry.2)
  · simp only [List.mem_cons, List.not_mem_nil, or_false] at below
    rcases below with rfl | rfl | rfl
    · exact dashes
    · exact newline_not_mem_totalRow _
    · exact List.not_mem_nil

theorem readTable_groupStatsPrint {winsock : Winsock} (standard : winsock.Standard)
    (stats : McGroupStatsMap) :
    readTable winsock (groupStatsPrint winsock stats) =
      stats.toList.map fun entry => (entry.1, figures entry.2) := by
  rw [groupStatsPrint_eq, readTable_lines (newline_not_mem_lines standard stats),
    List.filterMap_append, List.filterMap_append, filterMap_rows (readRow_row standard)]
  have blank : readRow winsock [] = none := rfl
  have dashed : readRow winsock rule = none := readRow_rule standard (by decide)
  simp only [List.filterMap_cons, List.filterMap_nil, blank, readRow_heading standard,
    dashed, readRow_totalRow standard, List.nil_append, List.append_nil]

theorem totals_line {winsock : Winsock} (standard : winsock.Standard) (stats : McGroupStatsMap) :
    (fields (groupStatsPrint winsock stats) '\n')[stats.size + 4]? =
      some (totalRow (getMcTotals stats)) := by
  have split := @fields_flatMap_delim _ _ _ [] _ (newline_not_mem_lines standard stats)
  rw [List.append_nil] at split
  rw [groupStatsPrint_eq, split, ← Std.TreeMap.length_toList]
  simp

end RioConsumer

namespace RioProducer

def figures (value : McGroupStats) : List Nat :=
  [value.packets.toNat, value.bytes.toNat, value.sequence.toNat]

theorem numeric_columns (value : McGroupStats) : ∀ cell ∈ columns value, Numeric cell := by
  simp only [columns, List.forall_mem_cons, List.not_mem_nil, false_imp_iff, implies_true,
    and_true]
  refine ⟨?_, ?_, ?_⟩ <;> exact numeric_column rfl _ _

theorem readRow_row {winsock : Winsock} (standard : winsock.Standard) (key : UInt32)
    (value : McGroupStats) :
    readRow winsock (row winsock key value) = some (key, figures value) := by
  rw [row, readRow_printed standard key (numeric_columns value) (by simp [columns, column])]
  simp [columns, column, decimal, figures, Nat.ofDigitChars_ten_toDigits]

theorem words_heading : words isBlank heading = "Group".toList ::
      ["Packets".toList, "Bytes".toList, "Last".toList, "Seq".toList] ∧
    '\n' ∉ heading := by decide +kernel

theorem readRow_heading {winsock : Winsock} (standard : winsock.Standard) :
    readRow winsock heading = none :=
  readRow_eq_none standard words_heading.1 (List.mem_of_mem_head? rfl)
    (by decide : ¬ 'G'.isDigit ∧ 'G' ≠ '.')

theorem groupStatsPrint_eq (winsock : Winsock) (stats : McGroupStatsMap) :
    groupStatsPrint winsock stats =
      ([[], heading, rule] ++ stats.toList.map (fun entry => row winsock entry.1 entry.2) ++
        [([] : Text)]).flatMap (· ++ ['\n']) := by
  have loop (entries : List (UInt32 × McGroupStats)) (rows : Text) :
      entries.foldl (fun rows entry => printGroup winsock rows entry.1 entry.2) rows =
        rows ++ entries.flatMap fun entry => row winsock entry.1 entry.2 ++ ['\n'] := by
    induction entries generalizing rows with
    | nil => simp
    | cons entry entries ih =>
        rw [List.foldl_cons, ih, printGroup, List.flatMap_cons, List.append_assoc,
          List.append_assoc, List.append_assoc]
  have ran := loop stats.toList []
  rw [← Std.TreeMap.foldl_eq_foldl_toList, List.nil_append] at ran
  unfold groupStatsPrint
  rw [ran]
  simp only [List.flatMap_append, List.flatMap_map, List.flatMap_cons, List.flatMap_nil,
    List.append_assoc, List.append_nil, List.nil_append, List.cons_append]

theorem readTable_groupStatsPrint {winsock : Winsock} (standard : winsock.Standard)
    (stats : McGroupStatsMap) :
    readTable winsock (groupStatsPrint winsock stats) =
      stats.toList.map fun entry => (entry.1, figures entry.2) := by
  have dashes : '\n' ∉ rule := fun member =>
    absurd (List.eq_of_mem_replicate member) (by decide)
  have free : ∀ line ∈ [[], heading, rule] ++
      stats.toList.map (fun entry => row winsock entry.1 entry.2) ++ [[]], '\n' ∉ line := by
    intro line member
    simp only [List.mem_append, List.mem_cons, List.not_mem_nil, or_false] at member
    rcases member with ((rfl | rfl | rfl) | inside) | rfl
    · exact List.not_mem_nil
    · exact words_heading.2
    · exact dashes
    · obtain ⟨entry, -, rfl⟩ := List.mem_map.mp inside
      exact newline_not_mem_row standard entry.1 (numeric_columns entry.2)
    · exact List.not_mem_nil
  rw [groupStatsPrint_eq, readTable_lines free, List.filterMap_append, List.filterMap_append,
    filterMap_rows (readRow_row standard)]
  have blank : readRow winsock [] = none := rfl
  have dashed : readRow winsock rule = none := readRow_rule standard (by decide)
  simp only [List.filterMap_cons, List.filterMap_nil, blank, readRow_heading standard,
    dashed, List.nil_append, List.append_nil]

end RioProducer

theorem length_dottedQuad_le (host : UInt32) : (dottedQuad host).length ≤ 15 := by
  have octet (index : Nat) : (Nat.toDigits 10 (byteOf host index)).length ≤ 3 :=
    (Nat.length_toDigits_le_iff (by decide) (by decide)).mpr
      (Nat.lt_trans (byteOf_lt host index) (by decide))
  have first := octet 3
  have second := octet 2
  have third := octet 1
  have fourth := octet 0
  simp only [dottedQuad, List.map_cons, List.map_nil, List.intercalate_cons_cons,
    List.intercalate_singleton, List.length_append, List.length_singleton]
  omega

/-- Read line by line and word by word, both tables give back every group with its
numbers; the totals line is that of `GetMcTotals`, and its numbers are words of their
own exactly below 10 ^ 11 drops. No address needs more than the 16 bytes of `inetspace`. -/
theorem statistics_tables {winsock : Winsock} (standard : winsock.Standard)
    (stats : McGroupStatsMap) :
    let totals := getMcTotals stats
    readTable winsock (RioConsumer.groupStatsPrint winsock stats) =
        stats.toList.map (fun entry => (entry.1, RioConsumer.figures entry.2)) ∧
      readTable winsock (RioProducer.groupStatsPrint winsock stats) =
        stats.toList.map (fun entry => (entry.1, RioProducer.figures entry.2)) ∧
      (fields (RioConsumer.groupStatsPrint winsock stats) '\n')[stats.size + 4]? =
        some (RioConsumer.totalRow totals) ∧
      (words isBlank (RioConsumer.totalRow totals) = "Totals:".toList ::
          [decimal totals.totalPackets, decimal totals.totalBytes,
            decimal totals.totalOutOfOrder, decimal totals.totalDrops] ↔
        totals.totalDrops.toNat < 10 ^ 11) ∧
      ∀ key ∈ stats, (winsock.inetNtop key).length < 16 := by
  refine ⟨RioConsumer.readTable_groupStatsPrint standard stats,
    RioProducer.readTable_groupStatsPrint standard stats,
    RioConsumer.totals_line standard stats, RioConsumer.words_totalRow_iff _, ?_⟩
  intro key _
  rw [standard.ntop]
  exact Nat.lt_succ_of_le (length_dottedQuad_le _)

def twoGroupStats : McGroupStatsMap :=
  (({} : McGroupStatsMap).insert 38077935
    { packets := 5, bytes := 500, sequence := 7, outOfOrder := 1, rxDropped := 3 }).insert 54855151
      { packets := 12, bytes := 1200, sequence := 11 }

theorem statistics_tables_two_groups :
    readTable referenceWinsock (RioConsumer.groupStatsPrint referenceWinsock twoGroupStats) =
      [(38077935, [5, 500, 7, 1, 3]), (54855151, [12, 1200, 11, 0, 0])] ∧
    readTable referenceWinsock (RioProducer.groupStatsPrint referenceWinsock twoGroupStats) =
      [(38077935, [5, 500, 7]), (54855151, [12, 1200, 11])] ∧
    (fields (RioConsumer.groupStatsPrint referenceWinsock twoGroupStats) '\n')[6]? =
      some (RioConsumer.totalRow ⟨17, 1700, 1, 3⟩) := by
  obtain ⟨consumer, producer, totals, -⟩ :=
    statistics_tables referenceWinsock_standard twoGroupStats
  exact ⟨consumer, producer, totals⟩

end RioClient
