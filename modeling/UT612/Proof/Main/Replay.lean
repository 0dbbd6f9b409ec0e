import UT612.Proof.Main.Live
import UT612.Proof.Main.Loop
import UT612.Proof.Parser.Segments

/-!
# Replay

What a live session prints, and what `processFile` makes of the bytes it has saved. The loop of
`process` ends two bytes before the end of the file, so the two agree, up to the time column and the
line with the size, if nothing is cut at these two bytes. A session that ends with a whole frame
loses the row of that frame.
-/

namespace UT612

open Segmentation

/-! ### What a session prints -/

/-- The parser frames its input the same with and without a time column. -/
theorem framer_step_untimed (p : UT612ByteStreamParser) (doTimestamp : Bool) (byte : UInt8) :
    framer.step { p with doTimestamp := doTimestamp } byte =
      ({ (framer.step p byte).1 with doTimestamp := doTimestamp }, (framer.step p byte).2) := by
  by_cases hend : EndsFrame p byte
  · have hend' : EndsFrame { p with doTimestamp := doTimestamp } byte := hend
    rw [framer_step_of_endsFrame hend, framer_step_of_endsFrame hend']
    rfl
  · have hend' : ¬ EndsFrame { p with doTimestamp := doTimestamp } byte := hend
    rw [framer_step_of_not_endsFrame hend, framer_step_of_not_endsFrame hend']

theorem framer_outputs_untimed (p : UT612ByteStreamParser) (doTimestamp : Bool)
    (bytes : List UInt8) :
    framer.outputs { p with doTimestamp := doTimestamp } bytes = framer.outputs p bytes := by
  induction bytes generalizing p with
  | nil => rfl
  | cons byte bytes ih =>
      rw [Transducer.outputs_cons, Transducer.outputs_cons, framer_step_untimed, ih]

/-- The windows cut from some bytes. -/
def windowsOf (bytes : List UInt8) : List Window :=
  (framer.outputs (freshParser false) bytes).map Cut.window

/-- The header, if there is one, and the lines of some windows. -/
def sessionText (clock : Clock) (doPrintHeader doTimestamp : Bool) (windows : List Window) : Text :=
  (if doPrintHeader then getColumnHeader doTimestamp ++ "\n".toList else []) ++
    (windows.mapIdx fun i w =>
      frameLine (UInt64.ofNat i) (stamp clock doTimestamp i) w).flatten

/-- What is said on `cerr` about some bytes. -/
def sessionErrors (bytes : List UInt8) : Text :=
  ((framer.outputs (freshParser false) bytes).map Cut.error).flatten

/-- What a new parser prints of some bytes. -/
theorem run_newParser (clock : Clock) (doPrintHeader doTimestamp : Bool) (size : Text)
    (bytes : List UInt8) :
    (framer.outputs (freshParser doTimestamp) bytes).foldl (Console.emit clock doTimestamp)
        (newParser doPrintHeader doTimestamp ⟨size, [], 0⟩).2 =
      { cout := size ++ sessionText clock doPrintHeader doTimestamp (windowsOf bytes)
        cerr := sessionErrors bytes
        clockReads := if doTimestamp then (windowsOf bytes).length else 0 } := by
  have huntimed : framer.outputs (freshParser doTimestamp) bytes =
      framer.outputs (freshParser false) bytes :=
    framer_outputs_untimed (freshParser false) doTimestamp bytes
  have hlines : cutLines clock doTimestamp 0 (framer.outputs (freshParser doTimestamp) bytes) = _ :=
    cutLines_outputs clock doTimestamp 0 rfl
  have hstart : (newParser doPrintHeader doTimestamp ⟨size, [], 0⟩).2 =
      ⟨size ++ if doPrintHeader then getColumnHeader doTimestamp ++ "\n".toList else [], [], 0⟩ := by
    cases doPrintHeader with
    | false => simp [newParser]
    | true => rfl
  rw [foldl_emit, hstart, hlines, huntimed]
  simp only [sessionText, windowsOf, sessionErrors, freshParser, UInt64.zero_add, Nat.zero_add,
    List.append_assoc, List.nil_append, List.length_map]

/-- A live session whose bytes are saved. -/
theorem processUSB_eq (clock : Clock) (doPrintHeader verbose : Bool) {parserAt byteSaverAt : Nat}
    (hne : parserAt ≠ byteSaverAt) (bytes : List UInt8) :
    ∃ heap, processUSB clock.now doPrintHeader verbose parserAt (some byteSaverAt) bytes .empty =
        .ok (heap,
          { cout := sessionText clock doPrintHeader true (windowsOf bytes)
            cerr := sessionErrors bytes
            clockReads := (windowsOf bytes).length }) ∧
      heap byteSaverAt = some (.file ⟨bytes⟩) := by
  have hsession := session_setUpUSB doPrintHeader verbose hne .empty
  obtain ⟨heap, hdeliver, hend⟩ :=
    hsession.deliver clock bytes (setUpUSB doPrintHeader verbose parserAt (some byteSaverAt) .empty).2.2
  refine ⟨heap, hdeliver.trans ?_, hend.byteSaver⟩
  have hrun := run_newParser clock doPrintHeader true [] bytes
  rw [List.nil_append, if_pos rfl] at hrun
  rw [← hrun]
  rfl

theorem processFile_eq (clock : Clock) (doPrintHeader : Bool) {file : List UInt8}
    (h : 2 ≤ file.length) :
    processFile clock.now file doPrintHeader .empty =
      .ok
        { cout := sizeLine file ++
            sessionText clock doPrintHeader false (windowsOf (file.take (file.length - 2)))
          cerr := sessionErrors (file.take (file.length - 2))
          clockReads := 0 } := by
  have hbound : loopBound file = file.length - 2 := sizeSub_of_le h
  have hloop := processLoop_eq clock.now (s := loopStart file doPrintHeader .empty)
    (show 0 + (file.length - 2) ≤ file.length by omega)
  have hrun := run_newParser clock doPrintHeader false (sizeLine file)
    (file.take (file.length - 2))
  rw [if_neg Bool.false_ne_true] at hrun
  rw [processBytes_eq] at hloop
  rw [processFile, if_pos (by omega), process, hbound, hloop, ← hrun]
  rfl

/-! ### Agreement -/

/-- The replay of a session feeds all saved bytes but the last two to its parser, cuts the windows
the session has cut, and prints what the session has printed, except for the time column and for the
line with the size. -/
def Replays (clock : Clock) (doPrintHeader : Bool) (live : Console) (windows : List Window)
    (saved : List UInt8) : Prop :=
  ∃ offline size fed p,
    processFile clock.now saved doPrintHeader .empty = .ok offline ∧
    size = (if saved = [] then [] else sizeLine saved) ∧
    fed = saved.take (saved.length - 2) ∧
    processBytes clock.now fed (newParser doPrintHeader false ⟨size, [], 0⟩).1
      (newParser doPrintHeader false ⟨size, [], 0⟩).2 = .ok (p, offline) ∧
    windowsOf fed = windows ∧
    offline.cout = size ++ sessionText clock doPrintHeader false windows ∧
    offline.cerr = live.cerr

/-- At least two bytes follow the last frame that is cut from some bytes. -/
def EndsQuietly (bytes : List UInt8) : Prop :=
  ∀ segments rest, IsSegmentation FrameEnd bytes segments rest → 2 ≤ rest.length

theorem endsQuietly_iff (bytes : List UInt8) :
    EndsQuietly bytes ↔ 2 ≤ ((segmenter FrameEnd).finish [] bytes).length := by
  constructor
  · exact fun h => h _ _ (isSegmentation_bytes bytes)
  · intro h segments rest hsegmentation
    rwa [(hsegmentation.unique (isSegmentation_bytes bytes)).2]

/-- Of the last two bytes, neither ends a frame if at least two bytes are left. -/
theorem endsQuietly_append_iff {front tail : List UInt8} (htail : tail.length = 2) :
    EndsQuietly (front ++ tail) ↔
      framer.outputs (framer.finish (freshParser false) front) tail = [] := by
  have htracks := (tracks_freshParser false).finish front
  have hempty : framer.outputs (framer.finish (freshParser false) front) tail = [] ↔
      (segmenter FrameEnd).outputs ((segmenter FrameEnd).finish [] front) tail = [] := by
    have hlength := congrArg List.length (htracks.outputs_seen tail)
    rw [List.length_map, List.length_map] at hlength
    rw [← List.length_eq_zero_iff, hlength, List.length_eq_zero_iff]
  rw [hempty, endsQuietly_iff, Transducer.finish_append]
  constructor
  · intro h
    by_contra hne
    exact absurd (length_finish_lt hne) (by omega)
  · intro h
    rw [finish_of_outputs_eq_nil h, List.length_append]
    omega

theorem sessionText_append_eq_iff (clock : Clock) (doPrintHeader doTimestamp : Bool)
    (windows extra : List Window) :
    sessionText clock doPrintHeader doTimestamp windows =
      sessionText clock doPrintHeader doTimestamp (windows ++ extra) ↔ extra = [] := by
  constructor
  · intro h
    rw [sessionText, sessionText, List.append_cancel_left_eq, List.mapIdx_append,
      List.flatten_append, List.self_eq_append_right] at h
    cases extra with
    | nil => rfl
    | cons w extra => simp [frameLine] at h
  · rintro rfl
    rw [List.append_nil]

theorem windowsOf_append (front tail : List UInt8) :
    windowsOf (front ++ tail) = windowsOf front ++
      (framer.outputs (framer.finish (freshParser false) front) tail).map Cut.window := by
  rw [windowsOf, Transducer.outputs_append, List.map_append]
  rfl

/-- The console of a live session. -/
def liveConsole (clock : Clock) (doPrintHeader : Bool) (bytes : List UInt8) : Console where
  cout := sessionText clock doPrintHeader true (windowsOf bytes)
  cerr := sessionErrors bytes
  clockReads := (windowsOf bytes).length

section Replays

variable (clock clock' : Clock) (doPrintHeader : Bool)

theorem replays_nil_iff :
    Replays clock' doPrintHeader (liveConsole clock doPrintHeader []) (windowsOf []) [] ↔
      doPrintHeader = false := by
  constructor
  · intro h
    obtain ⟨offline, _, _, _, hrun, rfl, -, -, -, hcout, -⟩ := h
    obtain rfl : Console.empty = offline := Except.ok.inj hrun
    cases doPrintHeader with
    | false => rfl
    | true => exact nomatch hcout
  · intro h
    subst h
    exact ⟨.empty, [], [], _, rfl, rfl, rfl, rfl, rfl, rfl, rfl⟩

theorem not_replays_of_length_eq_one {bytes : List UInt8} (h : bytes.length = 1) (live : Console)
    (windows : List Window) : ¬ Replays clock' doPrintHeader live windows bytes := by
  intro hreplays
  obtain ⟨offline, _, _, _, hrun, -⟩ := hreplays
  rw [processFile_of_length_eq_one clock'.now doPrintHeader .empty h] at hrun
  exact nomatch hrun

theorem replays_append_iff (front : List UInt8) {tail : List UInt8} (htail : tail.length = 2) :
    Replays clock' doPrintHeader (liveConsole clock doPrintHeader (front ++ tail))
        (windowsOf (front ++ tail)) (front ++ tail) ↔
      EndsQuietly (front ++ tail) := by
  have hlength : 2 ≤ (front ++ tail).length := by
    rw [List.length_append]
    omega
  have htake : (front ++ tail).take ((front ++ tail).length - 2) = front := by
    rw [List.length_append, htail, Nat.add_sub_cancel, List.take_left]
  have hne : front ++ tail ≠ [] := List.ne_nil_of_length_pos (by omega)
  have hrun := processFile_eq clock' doPrintHeader hlength
  rw [htake] at hrun
  rw [endsQuietly_append_iff htail]
  constructor
  · intro h
    obtain ⟨offline, _, _, _, hoffline, rfl, -, -, -, hcout, -⟩ := h
    obtain rfl := Except.ok.inj (hrun.symm.trans hoffline)
    rw [if_neg hne, List.append_cancel_left_eq, windowsOf_append, sessionText_append_eq_iff] at hcout
    exact List.map_eq_nil_iff.mp hcout
  · intro h
    have houtputs : framer.outputs (freshParser false) (front ++ tail) =
        framer.outputs (freshParser false) front := by
      rw [Transducer.outputs_append, h, List.append_nil]
    have hwindows : windowsOf front = windowsOf (front ++ tail) := by
      rw [windowsOf, windowsOf, houtputs]
    refine ⟨_, sizeLine (front ++ tail), front, framer.finish (freshParser false) front, hrun,
      (if_neg hne).symm, htake.symm, ?_, hwindows, ?_, ?_⟩
    · have hconsole := run_newParser clock' doPrintHeader false (sizeLine (front ++ tail)) front
      rw [if_neg Bool.false_ne_true] at hconsole
      rw [← hconsole]
      exact processBytes_eq clock' front _ _
    · rw [hwindows]
    · rw [liveConsole, sessionErrors, sessionErrors, houtputs]

end Replays

/-- **Replay.** The session prints the rows of all its windows and saves all its bytes, but the
replay agrees with it exactly if two bytes are left at its end, or if it has no bytes and no
header. -/
theorem replay_iff (clock clock' : Clock) (doPrintHeader verbose : Bool) (parserAt byteSaverAt : Nat)
    (hne : parserAt ≠ byteSaverAt) (bytes : List UInt8) :
    ∃ heap live saved,
      processUSB clock.now doPrintHeader verbose parserAt (some byteSaverAt) bytes .empty =
        .ok (heap, live) ∧
      heap byteSaverAt = some (.file ⟨saved⟩) ∧
      live.cout = sessionText clock doPrintHeader true (windowsOf bytes) ∧
      (Replays clock' doPrintHeader live (windowsOf bytes) saved ↔
        EndsQuietly bytes ∨ (bytes = [] ∧ doPrintHeader = false)) := by
  obtain ⟨heap, hlive, hsaved⟩ := processUSB_eq clock doPrintHeader verbose hne bytes
  refine ⟨heap, liveConsole clock doPrintHeader bytes, bytes, hlive, hsaved, rfl, ?_⟩
  have hjoin := congrArg List.length (isSegmentation_bytes bytes).join
  rw [List.length_append] at hjoin
  rcases Nat.lt_or_ge bytes.length 2 with hshort | hlong
  · have hquiet : ¬ EndsQuietly bytes := by
      rw [endsQuietly_iff]
      omega
    rcases Nat.eq_zero_or_pos bytes.length with hzero | hpos
    · obtain rfl := List.length_eq_zero_iff.mp hzero
      rw [replays_nil_iff]
      simp [hquiet]
    · apply iff_of_false (not_replays_of_length_eq_one clock' doPrintHeader (by omega) _ _)
      rintro (hends | ⟨rfl, -⟩)
      · exact hquiet hends
      · exact absurd hpos (lt_irrefl 0)
  · have hne : bytes ≠ [] := List.ne_nil_of_length_pos (by omega)
    have htail : (bytes.drop (bytes.length - 2)).length = 2 := by
      rw [List.length_drop]
      omega
    have hsplit := List.take_append_drop (bytes.length - 2) bytes
    have hreplays := replays_append_iff clock clock' doPrintHeader
      (bytes.take (bytes.length - 2)) htail
    rw [hsplit] at hreplays
    rw [hreplays]
    simp [hne]

theorem replay_iff_phase :
    ∃ heap live saved,
      processUSB Clock.stopped.now true false 1 (some 2) (phaseFrame.bytes ++ [0x00, 0x0d]) .empty =
        .ok (heap, live) ∧
      heap 2 = some (.file ⟨saved⟩) ∧
      Replays Clock.stopped true live (windowsOf (phaseFrame.bytes ++ [0x00, 0x0d])) saved := by
  have hquiet : EndsQuietly (phaseFrame.bytes ++ [0x00, 0x0d]) := by
    rw [endsQuietly_iff]
    decide +kernel
  obtain ⟨heap, live, saved, hlive, hsaved, -, hreplays⟩ :=
    replay_iff Clock.stopped Clock.stopped true false 1 2 (by decide)
      (phaseFrame.bytes ++ [0x00, 0x0d])
  exact ⟨heap, live, saved, hlive, hsaved, hreplays.mpr (.inl hquiet)⟩

/-- Not every session is replayed. One whole frame is not. -/
theorem exists_not_replayed :
    ¬ ∀ (clock clock' : Clock) (doPrintHeader verbose : Bool) (parserAt byteSaverAt : Nat),
      parserAt ≠ byteSaverAt → ∀ (bytes : List UInt8) (heap : Heap) (live : Console)
        (saved : List UInt8),
        processUSB clock.now doPrintHeader verbose parserAt (some byteSaverAt) bytes .empty =
          .ok (heap, live) →
        heap byteSaverAt = some (.file ⟨saved⟩) →
        Replays clock' doPrintHeader live (windowsOf bytes) saved := by
  intro h
  -- the frame is cut at its last byte, which the replay does not read
  let frame := phaseFrame.bytes.take 15 ++ [0x0d, 0x0a]
  obtain ⟨heap, hlive, hsaved⟩ :=
    processUSB_eq Clock.stopped true false (show 1 ≠ 2 by decide) frame
  have hreplays := h Clock.stopped Clock.stopped true false 1 2 (by decide) frame heap _ _ hlive hsaved
  have hquiet := (replays_append_iff Clock.stopped Clock.stopped true (phaseFrame.bytes.take 15)
    rfl).mp hreplays
  rw [endsQuietly_iff] at hquiet
  revert hquiet
  decide +kernel

end UT612
