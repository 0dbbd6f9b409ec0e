import UT612.Proof.Main.Options
import UT612.Proof.Main.Replay
import UT612.Proof.Source.Session

/-!
# Saving and reading again

Two runs of the program. In the first the device is read and its bytes are saved to a file, in the
second the file is read. Whatever the reports, the devices found and the spelling of the two command
lines, the file has the payload of the reports, and the second run shows the rows of the first
without their times, but for the row of a frame that ends in the last two bytes.
-/

namespace UT612

open Memory

/-! ### Rows -/

def headerText (doPrintHeader doTimestamp : Bool) : Text :=
  if doPrintHeader then getColumnHeader doTimestamp ++ "\n".toList else []

/-- The lines of some windows, on a clock that has not been read before. -/
def rowsText (clock : Clock) (doTimestamp : Bool) (windows : List Window) : Text :=
  (windows.mapIdx fun i w => frameLine (UInt64.ofNat i) (stamp clock doTimestamp i) w).flatten

theorem sessionText_eq (clock : Clock) (doPrintHeader doTimestamp : Bool) (windows : List Window) :
    sessionText clock doPrintHeader doTimestamp windows =
      headerText doPrintHeader doTimestamp ++ rowsText clock doTimestamp windows :=
  rfl

theorem newParser_snd (doPrintHeader doTimestamp : Bool) :
    (newParser doPrintHeader doTimestamp .empty).2 = ⟨headerText doPrintHeader doTimestamp, [], 0⟩ := by
  cases doPrintHeader <;> rfl

/-- A parser that starts with these bytes prints their rows. -/
theorem cout_foldl_emit (clock : Clock) (doTimestamp : Bool) {con : Console}
    (h : con.clockReads = 0) (bytes : List UInt8) :
    ((framer.outputs (freshParser doTimestamp) bytes).foldl (Console.emit clock doTimestamp) con).cout =
      con.cout ++ rowsText clock doTimestamp (windowsOf bytes) := by
  have huntimed : framer.outputs (freshParser doTimestamp) bytes =
      framer.outputs (freshParser false) bytes :=
    framer_outputs_untimed (freshParser false) doTimestamp bytes
  have hlines : cutLines clock doTimestamp 0 (framer.outputs (freshParser doTimestamp) bytes) = _ :=
    cutLines_outputs clock doTimestamp 0 rfl
  rw [foldl_emit, h, hlines, huntimed]
  simp only [freshParser, UInt64.zero_add, Nat.zero_add]
  rfl

/-! ### The last two bytes -/

theorem not_endsFrame_of_empty {p : UT612ByteStreamParser} (h : p.buffer = []) (byte : UInt8) :
    ¬ EndsFrame p byte := by
  intro hends
  have hlength : frameSize ≤ (p.buffer ++ [byte]).length := hends.2
  rw [h, List.nil_append, List.length_singleton] at hlength
  exact absurd hlength (by decide)

/-- At most one frame ends in two bytes. -/
theorem length_outputs_le_one (p : UT612ByteStreamParser) {tail : List UInt8} (h : tail.length = 2) :
    (framer.outputs p tail).length ≤ 1 := by
  obtain ⟨byte, byte', rfl⟩ := List.length_eq_two.mp h
  have hone : ∀ x : Option Cut, x.toList.length ≤ 1 := fun x => by cases x <;> simp
  rw [Transducer.outputs_cons, Transducer.outputs_cons, Transducer.outputs_nil, List.append_nil,
    List.length_append]
  by_cases hends : EndsFrame p byte
  · have hempty : (framer.step p byte).1.buffer = [] := by rw [framer_step_of_endsFrame hends]
    rw [framer_step_of_not_endsFrame (not_endsFrame_of_empty hempty byte')]
    exact hone _
  · rw [framer_step_of_not_endsFrame hends]
    exact (Nat.zero_add _).trans_le (hone _)

/-- The windows that a replay leaves out. -/
theorem exists_windowsOf_eq_append {bytes : List UInt8} (h : 2 ≤ bytes.length) :
    ∃ lost, windowsOf bytes = windowsOf (bytes.take (bytes.length - 2)) ++ lost ∧
      lost.length ≤ 1 ∧ (lost = [] ↔ EndsQuietly bytes) := by
  have htail : (bytes.drop (bytes.length - 2)).length = 2 := by
    rw [List.length_drop]
    omega
  have hsplit := List.take_append_drop (bytes.length - 2) bytes
  have hwindows := windowsOf_append (bytes.take (bytes.length - 2)) (bytes.drop (bytes.length - 2))
  have hquiet : EndsQuietly (bytes.take (bytes.length - 2) ++ bytes.drop (bytes.length - 2)) ↔ _ :=
    endsQuietly_append_iff htail
  rw [hsplit] at hwindows hquiet
  refine ⟨_, hwindows, ?_, ?_⟩
  · rw [List.length_map]
    exact length_outputs_le_one _ htail
  · rw [hquiet, List.map_eq_nil_iff]

/-! ### The session -/

section Session

variable {clock : Clock} {host : Program.Host} {verbose : Bool} {results : List HidRead}

/-- A live session whose bytes are saved. -/
theorem processUSB_session (hnow : host.now = clock.now)
    (h : Connects host.locale host.kernel host.answers verbose results)
    (hframed : ∀ r ∈ results, r.Framed) {filename : Text} (hcreates : host.creates filename = true)
    (doPrintHeader : Bool) (m : Store Block) :
    ∃ con m' said, Program.processUSB host doPrintHeader verbose (some filename) .empty m =
        .ok (⟨0, some (filename, payload results), con⟩, m') ∧
      con.cout = headerText doPrintHeader true ++ said ++
        rowsText clock true (windowsOf (payload results)) ++ killedByUser := by
  have hsession := session_setUpUSB doPrintHeader verbose host.ne .empty
  have hheader : (setUpUSB doPrintHeader verbose host.parserAt (some host.byteSaverAt) .empty).2.2 =
      ⟨headerText doPrintHeader true, [], 0⟩ := newParser_snd doPrintHeader true
  have hconnects : Connects host.locale host.kernel host.answers
      (setUpUSB doPrintHeader verbose host.parserAt (some host.byteSaverAt) .empty).1.verbose results := h
  revert hsession hheader hconnects
  generalize hs : setUpUSB doPrintHeader verbose host.parserAt (some host.byteSaverAt) .empty = s
  intro hsession hheader hconnects
  obtain ⟨con₁, hextends, hrun⟩ := hconnects.run host.allocator clock.now s.2.1 s.2.2 m
  obtain ⟨after, con₂, con₃, hloop, hdeliver, hsame⟩ :=
    mainLoop_deliver clock hsession.ne_none hframed con₁
  obtain ⟨after', hdeliver', hend⟩ := hsession.deliver clock (payload results) con₁
  obtain ⟨rfl, rfl⟩ := Prod.mk.inj (Except.ok.inj (hdeliver.symm.trans hdeliver'))
  obtain ⟨con, m', hok, hcon, -⟩ := hrun after con₂ hloop
  obtain ⟨said, hsaid⟩ := hextends.cout
  rw [hheader] at hsaid hextends
  refine ⟨con, m', said, ?_, ?_⟩
  · have hsaved : Program.savedBytes after host.byteSaverAt = payload results := by
      rw [Program.savedBytes, hend.byteSaver]
      exact List.nil_append _
    have hopen : evaluate (Program.newByteStreamToFile host filename) m = .ok (⟨[]⟩, m) := by
      rw [Program.newByteStreamToFile, if_pos hcreates]
      rfl
    refine (bind_of_ok hopen).trans ?_
    rw [hnow, hs]
    refine (bind_of_ok hok).trans ?_
    rw [hsaved]
    rfl
  · rw [hcon.cout, Console.out, hsame.cout, hsaid, ← cout_foldl_emit clock true hextends.clockReads]
    rfl

end Session

/-- A replay of the bytes in a file. -/
theorem processFile_replay {clock : Clock} {host : Program.Host} (hnow : host.now = clock.now)
    {name : Text} {bytes : List UInt8} (hfile : host.file name = some bytes)
    (h : 2 ≤ bytes.length) (doPrintHeader : Bool) (m : Store Block) :
    ∃ con, Program.processFile host name doPrintHeader .empty m = .ok (⟨0, none, con⟩, m) ∧
      con.cout = sizeLine bytes ++ (headerText doPrintHeader false ++
        rowsText clock false (windowsOf (bytes.take (bytes.length - 2)))) := by
  rw [Program.processFile, hfile, Option.getD_some, hnow, processFile_eq clock doPrintHeader h]
  refine ⟨_, rfl, ?_⟩
  rw [← sessionText_eq]

/-- A host with a meter that sends one report, and one with a file. -/
def meterHost (rounds : List RoundAnswer) (bytes : List UInt8) : Program.Host where
  allocator := Allocator.next Block
  locale := plainLocale
  now := Clock.stopped.now
  kernel := plainKernel
  answers := { meterAnswers with rounds := rounds }
  file _ := some bytes
  creates _ := true
  permute := true
  complaint _ := []
  notice := []
  parserAt := 1
  byteSaverAt := 2
  ne := by decide

/-- A session whose last frame ends in the last byte. -/
def sessionRounds : List RoundAnswer :=
  splitRounds ++ [⟨.ready 1, .bytes (17 :: phaseFrame.bytes) (by decide)⟩]

def sessionPayload : List UInt8 := phaseFrame.bytes ++ damagedFrame.bytes ++ phaseFrame.bytes

/-- Two flags in one word, and the argument in the next one. -/
theorem spells_saving : Getopt.Spells Program.options true ["-nd".toList, "log".toList]
    [⟨'n', none⟩, ⟨'d', some "log".toList⟩] [] :=
  .short (by decide) (.flag (by decide) (.separate (by decide))) .nil

/-- A long option that is abbreviated, with its argument attached. -/
theorem spells_parsing : Getopt.Spells Program.options true
    ["--parse=log".toList, "--noheader".toList] [⟨'p', some "log".toList⟩, ⟨'n', none⟩] [] := by
  have hparse : Getopt.Names Program.options "parse".toList ⟨"parsebinary".toList, true, 'p'⟩ :=
    .abbreviation (by decide) (by decide) (by decide) (by decide)
  have hnoheader : Getopt.Names Program.options "noheader".toList ⟨"noheader".toList, false, 'n'⟩ :=
    .exact (by decide)
  exact .long (by decide) (.attached hparse (by decide) rfl)
    (.long (by decide) (.flag hnoheader (by decide) rfl) .nil)

end UT612
