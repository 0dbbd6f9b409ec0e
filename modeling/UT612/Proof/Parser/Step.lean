import UT612.Library.Transducer
import UT612.Model.Parser
import UT612.Proof.Decoder.Grammar

/-!
# One byte through the parser

`processByte` mixes the framing of the byte stream with the printing of rows. This module separates
them: the framing is a transducer, `framer`, whose outputs are the frames cut, and what is printed
is a function of these outputs and of the clock. On a working clock `processByte` always returns,
and does exactly the step of the framer and the printing of its output; a loop over bytes does the
run of the framer and the printing of all outputs.
-/

namespace UT612

/-! ### What a frame prints -/

/-- The values column group of a frame: its row, or nothing. -/
def Window.values (w : Window) : Text :=
  match w.row with
  | .ok values => values
  | .error _ => []

/-- What is said about a frame on `cerr`: nothing if it has a row. -/
def Window.rejection (w : Window) : Text :=
  match w.row with
  | .error (.runtimeError what) => rejectionMessage what w.bytes
  | _ => []

/-- The time column with its tab, for the parsers that have one. -/
def stamp (clock : Clock) (doTimestamp : Bool) (reads : Nat) : Text :=
  if doTimestamp then clock.text reads ++ "\t".toList else []

/-- The line a frame prints, which begins with its number in decimal digits. -/
def frameLine (number : UInt64) (stamp : Text) (w : Window) : Text :=
  Nat.toDigits 10 number.toNat ++ "\t".toList ++ stamp ++ w.values ++ "\n".toList

/-- The alignment error for a distance, if it is one, with the distance in decimal digits. -/
def alignmentError (bytesSinceLastFrame : Int) : Text :=
  if bytesSinceLastFrame = frameSize then []
  else "\nERROR - FRAME ALIGNMENT ERROR (diff=".toList ++
    ((if bytesSinceLastFrame < 0 then ['-'] else []) ++ Nat.toDigits 10 bytesSinceLastFrame.natAbs) ++
    ")\n".toList

theorem alignmentError_eq_nil_iff (distance : Int) :
    alignmentError distance = [] ↔ distance = frameSize := by
  have hclosing : ")\n".toList ≠ [] := by decide
  by_cases h : distance = frameSize
  · exact iff_of_true (if_pos h) h
  · rw [alignmentError, if_neg h]
    exact iff_of_false (List.append_ne_nil_of_right_ne_nil _ hclosing) h

/-- The warning of `processByte` is the alignment error of its distance. -/
theorem alignmentWarning_eq {distance : Int} (h : distance ≠ frameSize) :
    alignmentWarning distance = alignmentError distance := by
  have hnumber : putInt distance =
      (if distance < 0 then ['-'] else []) ++ Nat.toDigits 10 distance.natAbs := by
    rw [putInt]
    split <;> rfl
  have herror : alignmentError distance = _ := if_neg h
  refine Eq.trans ?_ herror.symm
  exact congrArg (fun number =>
    "\nERROR - FRAME ALIGNMENT ERROR (diff=".toList ++ number ++ ")\n".toList) hnumber

/-- A frame that has been cut out of the stream. -/
structure Cut where
  window : Window
  number : UInt64
  bytesSinceLastFrame : Int
  deriving DecidableEq, Repr

def Cut.error (c : Cut) : Text := alignmentError c.bytesSinceLastFrame ++ c.window.rejection

/-- The printing of one cut. -/
def Console.emit (clock : Clock) (doTimestamp : Bool) (con : Console) (c : Cut) : Console where
  cout := con.cout ++ frameLine c.number (stamp clock doTimestamp con.clockReads) c.window
  cerr := con.cerr ++ c.error
  clockReads := con.clockReads + if doTimestamp then 1 else 0

/-! ### The framing -/

/-- The state after a byte has been counted and put into the buffer. -/
def counted (p : UT612ByteStreamParser) (byte : UInt8) : UT612ByteStreamParser :=
  { p with byteCount := p.byteCount + 1, buffer := p.buffer ++ [byte] }

/-- The test of `processByte` for the end of a frame. -/
def EndsFrame (p : UT612ByteStreamParser) (byte : UInt8) : Prop :=
  (p.lastByteWasCarriageReturn && byte == 0x0a) ∧ frameSize ≤ (counted p byte).buffer.length

instance (p : UT612ByteStreamParser) (byte : UInt8) : Decidable (EndsFrame p byte) :=
  inferInstanceAs (Decidable (_ ∧ _))

/-- The last 17 bytes of a buffer that has as many. -/
def lastWindow (buffer : List UInt8) (h : frameSize ≤ buffer.length) : Window :=
  Window.ofData buffer (buffer.length - frameSize) (Nat.le_of_eq (Nat.sub_add_cancel h))

/-- The cut that ends with a byte. -/
def cutAt (p : UT612ByteStreamParser) (byte : UInt8) (h : EndsFrame p byte) : Cut where
  window := lastWindow (counted p byte).buffer h.2
  number := p.frameCount
  bytesSinceLastFrame := sizeToInt ((counted p byte).byteCount - p.lastFrameByteCount)

/-- The parser without its printing. -/
def framer : Transducer UT612ByteStreamParser UInt8 Cut where
  step p byte :=
    let q := { counted p byte with lastByteWasCarriageReturn := byte == 0x0d }
    if h : EndsFrame p byte then
      ({ q with lastFrameByteCount := q.byteCount, frameCount := q.frameCount + 1, buffer := [] },
        some (cutAt p byte h))
    else (q, none)

@[simp] theorem framer_step_doTimestamp (p : UT612ByteStreamParser) (byte : UInt8) :
    (framer.step p byte).1.doTimestamp = p.doTimestamp := by
  simp only [framer]
  split <;> rfl

theorem lastWindow_bytes (buffer : List UInt8) (h : frameSize ≤ buffer.length) :
    (lastWindow buffer h).bytes = buffer.drop (buffer.length - frameSize) := by
  have hlength : (buffer.drop (buffer.length - frameSize)).length = frameSize := by
    rw [List.length_drop]
    omega
  exact List.take_of_length_le hlength.le

/-! ### `processByte` -/

theorem out_alignmentError (con : Console) (distance : Int) :
    (if distance ≠ frameSize then con.err (alignmentWarning distance) else con) =
      con.err (alignmentError distance) := by
  split
  · rw [alignmentWarning_eq ‹_›]
  · have haligned : alignmentError distance = [] :=
      (alignmentError_eq_nil_iff distance).mpr (not_not.mp ‹_›)
    simp [Console.err, haligned]

/-- A frame that has ended prints its cut, and leaves the parser with an empty buffer. -/
theorem endFrame_eq (clock : Clock) (p : UT612ByteStreamParser) (con : Console)
    (h : frameSize ≤ p.buffer.length) :
    endFrame clock.now p con h =
      .ok ({ p with lastFrameByteCount := p.byteCount, frameCount := p.frameCount + 1, buffer := [] },
        con.emit clock p.doTimestamp
          ⟨lastWindow p.buffer h, p.frameCount, sizeToInt (p.byteCount - p.lastFrameByteCount)⟩) := by
  have hrow : (lastWindow p.buffer h).row =
      processFrame p.buffer (p.buffer.length - frameSize) (Nat.le_of_eq (Nat.sub_add_cancel h)) :=
    Window.row_ofData _ _ _
  simp only [endFrame, ← hrow, ← lastWindow_bytes p.buffer h, out_alignmentError, Console.emit,
    Cut.error, frameLine, putSize, Window.values, Window.rejection, stamp]
  cases hw : (lastWindow p.buffer h).row with
  | ok values =>
      cases ht : p.doTimestamp <;>
        simp [Console.out, Console.err, clock.getCurrentTime_now, bind, Except.bind, pure, Except.pure]
  | error fault =>
      obtain ⟨what, rfl⟩ := Window.row_runtimeOnly _ fault hw
      cases ht : p.doTimestamp <;>
        simp [Console.out, Console.err, clock.getCurrentTime_now, bind, Except.bind, pure, Except.pure]

theorem processByte_eq (clock : Clock) (byte : UInt8) (p : UT612ByteStreamParser) (con : Console) :
    processByte clock.now byte p con =
      .ok ((framer.step p byte).1,
        ((framer.step p byte).2.toList).foldl (Console.emit clock p.doTimestamp) con) := by
  by_cases h : EndsFrame p byte
  · have hfits : (p.lastByteWasCarriageReturn && byte == 0x0a) ∧
        frameSize ≤ (p.buffer ++ [byte]).length := h
    have hend := endFrame_eq clock (counted p byte) con h.2
    simp only [counted] at hend
    simp only [processByte, dif_pos hfits, hend, framer, dif_pos h]
    rfl
  · have hfits : ¬ ((p.lastByteWasCarriageReturn && byte == 0x0a) ∧
        frameSize ≤ (p.buffer ++ [byte]).length) := h
    simp only [processByte, dif_neg hfits, framer, dif_neg h]
    rfl

/-- **A loop over bytes** is a run of the framer with its outputs printed in order. -/
theorem processBytes_eq (clock : Clock) (bytes : List UInt8) (p : UT612ByteStreamParser)
    (con : Console) :
    processBytes clock.now bytes p con =
      .ok (framer.finish p bytes,
        (framer.outputs p bytes).foldl (Console.emit clock p.doTimestamp) con) := by
  induction bytes generalizing p con with
  | nil => rfl
  | cons byte bytes ih =>
      rw [processBytes, processByte_eq, Transducer.outputs_cons, List.foldl_append,
        Transducer.finish_cons, ← framer_step_doTimestamp p byte]
      exact ih _ _

/-- A parser without a time column does not read the clock. -/
theorem processByte_untimed (now : Nat → TimeOfDay) (byte : UInt8) {p : UT612ByteStreamParser}
    (h : p.doTimestamp = false) (con : Console) :
    processByte now byte p con = processByte Clock.stopped.now byte p con := by
  simp only [processByte, endFrame, h, Bool.false_eq_true, if_false]

theorem processBytes_untimed (now : Nat → TimeOfDay) (bytes : List UInt8)
    {p : UT612ByteStreamParser} (h : p.doTimestamp = false) (con : Console) :
    processBytes now bytes p con = processBytes Clock.stopped.now bytes p con := by
  induction bytes generalizing p con with
  | nil => rfl
  | cons byte bytes ih =>
      rw [processBytes, processBytes, processByte_untimed now byte h, processByte_eq]
      exact ih ((framer_step_doTimestamp p byte).trans h) _

/-! ### What a run prints -/

/-- The lines of some cuts. The clock is read once for each line that has a time. -/
def cutLines (clock : Clock) (doTimestamp : Bool) (reads : Nat) (cuts : List Cut) : List Text :=
  cuts.mapIdx fun i c => frameLine c.number (stamp clock doTimestamp (reads + i)) c.window

theorem cutLines_cons (clock : Clock) (doTimestamp : Bool) (reads : Nat) (c : Cut)
    (cuts : List Cut) :
    cutLines clock doTimestamp reads (c :: cuts) =
      frameLine c.number (stamp clock doTimestamp reads) c.window ::
        cutLines clock doTimestamp (reads + 1) cuts := by
  simp [cutLines, List.mapIdx_cons, Nat.add_comm, Nat.add_left_comm]

theorem cutLines_untimed (clock : Clock) (reads reads' : Nat) (cuts : List Cut) :
    cutLines clock false reads cuts = cutLines clock false reads' cuts := rfl

theorem foldl_emit (clock : Clock) (doTimestamp : Bool) (cuts : List Cut) (con : Console) :
    cuts.foldl (Console.emit clock doTimestamp) con =
      { cout := con.cout ++ (cutLines clock doTimestamp con.clockReads cuts).flatten
        cerr := con.cerr ++ (cuts.map Cut.error).flatten
        clockReads := con.clockReads + if doTimestamp then cuts.length else 0 } := by
  induction cuts generalizing con with
  | nil => simp [cutLines]
  | cons c cuts ih =>
      rw [List.foldl_cons, ih, cutLines_cons]
      cases doTimestamp with
      | false =>
          simp [Console.emit, cutLines_untimed clock (con.clockReads + 1) con.clockReads]
      | true => simp [Console.emit, Nat.add_comm, Nat.add_left_comm]

end UT612
