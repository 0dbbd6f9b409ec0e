import UT612.Proof.Decoder.Fields
import UT612.Proof.Parser.Segments

/-!
# The table

What the parser writes to `cout` is a table: a header, and a line for each frame it has cut. A frame
with a row fills all columns of the header, and a frame without one leaves nothing but its number
and its time, wherever its decoding has failed.
-/

namespace UT612

/-- The texts of the time column, which only some tables have. -/
def timeFields (clock : Clock) (doTimestamp : Bool) (reads : Nat) : List Text :=
  if doTimestamp then [clock.text reads] else []

/-- The columns of the header. -/
def columns (doTimestamp : Bool) : List Text :=
  "NO".toList :: (if doTimestamp then ["Time".toList] else []) ++
    ["MMode".toList, "MValue".toList, "MUnit".toList, "SMode".toList, "SValue".toList,
      "SUnit".toList, "Freq".toList]

/-- A line without its newline. -/
def tableLine (clock : Clock) (doTimestamp : Bool) (reads i : Nat) (w : Window) : Text :=
  Nat.toDigits 10 (i % 2 ^ 64) ++ "\t".toList ++ stamp clock doTimestamp reads ++ w.values

theorem frameLines_eq (clock : Clock) (doTimestamp : Bool) (reads : Nat) (windows : List Window) :
    (windows.mapIdx fun i w => frameLine (UInt64.ofNat i) (stamp clock doTimestamp (reads + i)) w) =
      (windows.mapIdx fun i w => tableLine clock doTimestamp (reads + i) i w).map
        fun line => line ++ "\n".toList := by
  rw [List.mapIdx_eq_zipIdx_map, List.mapIdx_eq_zipIdx_map, List.map_map]
  apply List.map_congr_left
  intro entry _
  show frameLine (UInt64.ofNat entry.2) (stamp clock doTimestamp (reads + entry.2)) entry.1 = _
  rw [frameLine, UInt64.toNat_ofNat']
  rfl

theorem splitOn_getColumnHeader (doTimestamp : Bool) :
    (getColumnHeader doTimestamp).splitOn '\t' = columns doTimestamp := by
  cases doTimestamp <;> decide +kernel

theorem length_columns (clock : Clock) (doTimestamp : Bool) (reads : Nat) (number : Text) (r : Row) :
    (number :: timeFields clock doTimestamp reads ++ r.fields).length =
      (columns doTimestamp).length := by
  cases doTimestamp <;> rfl

section Line

variable (clock : Clock) (doTimestamp : Bool) (reads i : Nat) {w : Window}

/-- The line of a frame with a row, field by field. -/
theorem tableLine_of_row {r : Row} (hrow : w.row = .ok r.text) :
    tableLine clock doTimestamp reads i w =
      ['\t'].intercalate
        (Nat.toDigits 10 (i % 2 ^ 64) :: timeFields clock doTimestamp reads ++ r.fields) := by
  rw [tableLine, Window.values, hrow, Row.text]
  cases doTimestamp <;>
    simp [stamp, timeFields, Row.fields, List.intercalate, List.intersperse]

theorem tableLine_of_not_row (h : ¬ ∃ values, w.row = .ok values) :
    tableLine clock doTimestamp reads i w =
      Nat.toDigits 10 (i % 2 ^ 64) ++ "\t".toList ++ stamp clock doTimestamp reads := by
  have hvalues : w.values = [] := by
    rw [Window.values]
    cases hrow : w.row with
    | ok values => exact absurd ⟨values, hrow⟩ h
    | error fault => rfl
  rw [tableLine, hvalues, List.append_nil]

variable {clock} (hclock : ∀ n, IsField (clock.text n))
include hclock

theorem isField_of_mem {r : Row} (h : Decodes w r) :
    ∀ field ∈ Nat.toDigits 10 (i % 2 ^ 64) :: timeFields clock doTimestamp reads ++ r.fields,
      IsField field := by
  intro field hfield
  rw [List.cons_append, List.mem_cons, List.mem_append] at hfield
  rcases hfield with rfl | htime | hrow
  · exact isField_of_isDigits (Decimal.isDigits_toDigits _)
  · cases doTimestamp with
    | false => exact nomatch htime
    | true => exact List.mem_singleton.mp htime ▸ hclock reads
  · exact h.isField field hrow

/-- **The line of a frame with a row** splits at its tabs into the number, the time and the row. -/
theorem splitOn_tableLine {r : Row} (h : Decodes w r) (hrow : w.row = .ok r.text) :
    (tableLine clock doTimestamp reads i w).splitOn '\t' =
      Nat.toDigits 10 (i % 2 ^ 64) :: timeFields clock doTimestamp reads ++ r.fields := by
  rw [tableLine_of_row clock doTimestamp reads i hrow]
  apply List.splitOn_intercalate
  · intro field hfield
    exact (isField_of_mem doTimestamp reads i hclock h field hfield).1
  · exact List.cons_ne_nil _ _

theorem newline_notMem_tableLine : '\n' ∉ tableLine clock doTimestamp reads i w := by
  have hnumber : '\n' ∉ Nat.toDigits 10 (i % 2 ^ 64) :=
    (isField_of_isDigits (Decimal.isDigits_toDigits _)).2
  have hstamp : '\n' ∉ stamp clock doTimestamp reads := by
    cases doTimestamp with
    | false => exact List.not_mem_nil
    | true => simp [stamp, (hclock reads).2]
  have hvalues : '\n' ∉ w.values := by
    rw [Window.values]
    cases hrow : w.row with
    | ok values =>
        obtain ⟨-, r, hr, rfl⟩ := (w.row_eq_ok_iff values).mp hrow
        exact hr.newline_notMem_text
    | error fault => exact List.not_mem_nil
  rw [tableLine]
  simp only [List.mem_append, not_or]
  exact ⟨⟨⟨hnumber, by decide⟩, hstamp⟩, hvalues⟩

end Line

/-- **The table.** What a parser with a header writes to `cout` is the header and one line for each
window it has cut, with the numbers counted up from zero. A line whose window has a row has the
number of fields that the header has, the last seven of them the texts of the row; any other line
ends after its number, or after its time. -/
theorem table_rectangular (clock : Clock) (hclock : ∀ n, IsField (clock.text n)) (doTimestamp : Bool)
    (con : Console) (bytes : List UInt8) :
    ∃ p con' windows lines,
      processBytes clock.now bytes (newParser true doTimestamp con).1
        (newParser true doTimestamp con).2 = .ok (p, con') ∧
      windows = (framer.outputs (newParser true doTimestamp con).1 bytes).map Cut.window ∧
      con'.cout = con.cout ++
        ((getColumnHeader doTimestamp :: lines).map fun line => line ++ "\n".toList).flatten ∧
      lines.length = windows.length ∧
      (∀ line ∈ getColumnHeader doTimestamp :: lines, '\n' ∉ line) ∧
      (getColumnHeader doTimestamp).splitOn '\t' = columns doTimestamp ∧
      ∀ i w line, windows[i]? = some w → lines[i]? = some line →
        (∀ values, w.row = .ok values →
          ∃ r, Decodes w r ∧ values = r.text ∧
            line.splitOn '\t' =
              Nat.toDigits 10 (i % 2 ^ 64) :: timeFields clock doTimestamp (con.clockReads + i) ++
                r.fields ∧
            (line.splitOn '\t').length = (columns doTimestamp).length ∧
            ∀ field ∈ line.splitOn '\t', IsField field) ∧
        ((¬ ∃ values, w.row = .ok values) →
          line = Nat.toDigits 10 (i % 2 ^ 64) ++ "\t".toList ++
            stamp clock doTimestamp (con.clockReads + i)) := by
  have hcout := cout_of_freshParser clock doTimestamp (newParser true doTimestamp con).2 bytes
  refine ⟨_, _, _,
    ((framer.outputs (newParser true doTimestamp con).1 bytes).map Cut.window).mapIdx
      fun i w => tableLine clock doTimestamp (con.clockReads + i) i w,
    processBytes_eq clock bytes _ _, rfl, hcout.trans ?_, List.length_mapIdx, ?_,
    splitOn_getColumnHeader doTimestamp, ?_⟩
  · have hclockReads : (newParser true doTimestamp con).2.clockReads = con.clockReads := rfl
    have hheader : (newParser true doTimestamp con).2.cout =
        con.cout ++ (getColumnHeader doTimestamp ++ "\n".toList) := rfl
    rw [hclockReads, hheader, frameLines_eq, List.map_cons, List.flatten_cons, List.append_assoc]
    rfl
  · intro line hline
    rw [List.mem_cons, List.mem_mapIdx] at hline
    rcases hline with rfl | ⟨i, hi, rfl⟩
    · cases doTimestamp <;> decide +kernel
    · exact newline_notMem_tableLine doTimestamp _ i hclock
  · intro i w line hw hline
    rw [List.getElem?_mapIdx, hw, Option.map_some, Option.some_inj] at hline
    subst hline
    refine ⟨fun values hrow => ?_, tableLine_of_not_row clock doTimestamp _ i⟩
    obtain ⟨-, r, hr, rfl⟩ := (w.row_eq_ok_iff values).mp hrow
    have hsplit := splitOn_tableLine doTimestamp (con.clockReads + i) i hclock hr hrow
    refine ⟨r, hr, rfl, hsplit, ?_, ?_⟩
    · rw [hsplit, length_columns]
    · rw [hsplit]
      exact isField_of_mem doTimestamp _ i hclock hr

/-- The table of a frame with a row and a damaged one. -/
theorem table_rectangular_phase :
    ∃ p con' accepted damaged, ∃ r : Row,
      processBytes Clock.stopped.now (phaseFrame.bytes ++ damagedFrame.bytes)
        (newParser true true .empty).1 (newParser true true .empty).2 = .ok (p, con') ∧
      con'.cout =
        ([getColumnHeader true, accepted, damaged].map fun line => line ++ "\n".toList).flatten ∧
      (∀ line ∈ [getColumnHeader true, accepted, damaged], '\n' ∉ line) ∧
      r.text = "Rs\t0.5002\tkOhm\ttheta\t-0.1\tDeg\t100KHz".toList ∧
      accepted.splitOn '\t' = "0".toList :: "2016-01-10 12:00:00.250".toList :: r.fields ∧
      (accepted.splitOn '\t').length = (columns true).length ∧
      damaged = "1\t2016-01-10 12:00:00.250\t".toList := by
  have hclock : ∀ n, IsField (Clock.stopped.text n) := by
    intro n
    show IsField "2016-01-10 12:00:00.250".toList
    decide
  obtain ⟨p, con', windows, lines, hrun, hwindows, hcout, hlength, hlines, -, htable⟩ :=
    table_rectangular Clock.stopped hclock true .empty (phaseFrame.bytes ++ damagedFrame.bytes)
  obtain rfl : windows = [phaseFrame, damagedFrame] := by
    rw [hwindows]
    decide +kernel
  obtain ⟨accepted, damaged, rfl⟩ := List.length_eq_two.mp hlength
  have hrow : phaseFrame.row = .ok "Rs\t0.5002\tkOhm\ttheta\t-0.1\tDeg\t100KHz".toList := by
    decide +kernel
  have hnone : ¬ ∃ values, damagedFrame.row = .ok values := by
    rw [← isOk_iff]
    decide +kernel
  obtain ⟨r, -, htext, hsplit, hcolumns, -⟩ := (htable 0 phaseFrame accepted rfl rfl).1 _ hrow
  refine ⟨p, con', accepted, damaged, r, hrun, hcout, hlines, htext.symm, hsplit, hcolumns, ?_⟩
  exact ((htable 1 damagedFrame damaged rfl rfl).2 hnone).trans (by decide +kernel)

end UT612
