import UT612.Model.Run
import UT612.Proof.Source.Reports

/-!
# What a read brings

`hid_read_timeout` puts what the system answers into a fresh array, of which the main loop reads the
length byte and what it counts. For the main loop every answer is an error or a report, but for one:
where the first byte of a report is chopped off and the report fills the array, the bytes after the
array are moved into it.
-/

namespace UT612

/-! ### Answers as reads -/

/-- `poll` says that there is something to read, and no error. -/
def PollAnswer.isReady : PollAnswer → Bool
  | .ready revents => revents &&& (pollError ||| pollHangUp ||| pollInvalid) = 0
  | _ => false

/-- The read of a report that the kernel gives as it is, or with a byte before it. -/
def reportRead (chops : Bool) : (bytes : List UInt8) → bytes.length ≤ dataSize → HidRead
  | [], h => if chops then .error else .report [] h
  | byte :: bytes, h =>
      if chops then .report bytes ((Nat.le_succ _).trans h) else .report (byte :: bytes) h

theorem length_uninitialized (length : Nat) : (uninitialized length).length = length :=
  List.length_replicate

/-- What the call of `read` brings. -/
def readResult (chops : Bool) : ReadAnswer (uninitialized dataSize).length → HidRead
  | .failed errno =>
      if errno = .eagain ∨ errno = .einprogress then reportRead chops [] (Nat.zero_le _) else .error
  | .bytes bytes h => reportRead chops bytes (h.trans_eq (length_uninitialized _))

/-- A report that fills the array has a byte before it that is to be chopped off. -/
def readOverruns (chops : Bool) : ReadAnswer (uninitialized dataSize).length → Bool
  | .failed _ => false
  | .bytes bytes _ => chops && bytes.length == dataSize

/-- What a round of the main loop reads. -/
def RoundAnswer.result (chops : Bool) (answer : RoundAnswer) : HidRead :=
  if answer.poll.isReady then readResult chops answer.read
  else if answer.poll = .timeout then .report [] (Nat.zero_le _)
  else .error

def RoundAnswer.overruns (chops : Bool) (answer : RoundAnswer) : Bool :=
  answer.poll.isReady && readOverruns chops answer.read

/-! ### The array -/

/-- A fresh array after these bytes have been read into it. -/
def written (bytes : List UInt8) : DataArray := (uninitialized dataSize).fill bytes

theorem written_eq (bytes : List UInt8) :
    written bytes = bytes.map some ++ List.replicate (dataSize - bytes.length) none := by
  rw [written, DataArray.fill, uninitialized, List.drop_replicate]

theorem dataAt_written (r : HidRead) (i : Nat) : dataAt (written r.bytes) i = r.data i := by
  rw [dataAt, HidRead.data, written_eq]
  rcases Nat.lt_or_ge i r.bytes.length with hi | hi
  · rw [List.getElem?_append_left (by simpa using hi), List.getElem?_map,
      List.getElem?_eq_getElem hi]
    rfl
  · rw [List.getElem?_append_right (by simpa using hi), List.getElem?_eq_none hi,
      List.getElem?_replicate]
    split_ifs <;> rfl

theorem length_written {bytes : List UInt8} (h : bytes.length ≤ dataSize) :
    (written bytes).length = dataSize := by
  rw [written_eq, List.length_append, List.length_map, List.length_replicate]
  omega

/-- Chopping off the first of some bytes, if there is an element after them. -/
theorem memmove_written {byte : UInt8} {bytes : List UInt8} (h : bytes.length + 1 < dataSize) :
    (written (byte :: bytes)).memmove (byte :: bytes).length = .ok (written bytes) := by
  have hlength : (written (byte :: bytes)).length = dataSize := length_written (by simpa using h.le)
  obtain ⟨rest, hrest⟩ : ∃ rest, dataSize = bytes.length + 1 + (rest + 1) :=
    Nat.exists_eq_add_of_lt h
  have harray : written (byte :: bytes) =
      some byte :: (bytes.map some ++ none :: List.replicate rest none) := by
    rw [written_eq, List.length_cons, hrest, Nat.add_sub_cancel_left, List.replicate_succ]
    rfl
  have harray' : written bytes =
      bytes.map some ++ none :: none :: List.replicate rest none := by
    rw [written_eq, hrest, show bytes.length + 1 + (rest + 1) - bytes.length = rest + 1 + 1 by omega,
      List.replicate_succ, List.replicate_succ]
  rw [DataArray.memmove, if_pos (by rw [hlength, List.length_cons]; omega), harray, harray']
  simp [List.take_append, List.drop_append]

theorem memmove_full {bytes : List UInt8} (h : bytes.length = dataSize) :
    (written bytes).memmove bytes.length = .error .undefinedRead := by
  have hlength : (written bytes).length = dataSize := length_written h.le
  rw [DataArray.memmove, hlength, if_neg (by omega), if_neg (by rw [h]; decide)]

/-! ### One round -/

section Round

variable (kernel : Kernel) (kernelVersion : Nat) (dev : HidDevice) (answer : RoundAnswer)

theorem hidReadBytes_eq (read : ReadAnswer (uninitialized dataSize).length) :
    hidReadBytes kernel kernelVersion dev (uninitialized dataSize) read =
      if readOverruns (chopsReports kernel kernelVersion dev) read then .error .undefinedRead
      else .ok ((readResult (chopsReports kernel kernelVersion dev) read).read,
        written (readResult (chopsReports kernel kernelVersion dev) read).bytes) := by
  cases read with
  | failed errno =>
      simp only [hidReadBytes, readOverruns, readResult, Bool.false_eq_true, if_false]
      by_cases herrno : errno = .eagain ∨ errno = .einprogress
      · rw [if_pos herrno, if_pos herrno]
        cases chopsReports kernel kernelVersion dev <;> rfl
      · rw [if_neg herrno, if_neg herrno, if_neg fun h => absurd h.1 (by decide)]
        rfl
  | bytes bytes h =>
      rw [length_uninitialized] at h
      cases hchops : chopsReports kernel kernelVersion dev with
      | false =>
          simp only [hidReadBytes, readOverruns, readResult, hchops, Bool.false_eq_true, if_false,
            Bool.false_and]
          cases bytes <;> rfl
      | true =>
          simp only [hidReadBytes, readOverruns, readResult, hchops, if_true, Bool.true_and,
            beq_iff_eq]
          by_cases hfull : bytes.length = dataSize
          · rw [if_pos hfull]
            exact congrArg (· >>= _) (memmove_full hfull)
          · rw [if_neg hfull]
            cases bytes with
            | nil => rfl
            | cons byte bytes =>
                have hlt : bytes.length + 1 < dataSize := Nat.lt_of_le_of_ne h hfull
                have hread : ((byte :: bytes).length : Int) - 1 = bytes.length := by simp
                refine (congrArg (· >>= _) (memmove_written hlt)).trans ?_
                exact congrArg (fun n => Except.ok (n, written bytes)) hread

/-- **One read.** -/
theorem hidReadTimeout_eq :
    hidReadTimeout kernel kernelVersion dev (uninitialized dataSize) 1000 answer.poll answer.read =
      if answer.overruns (chopsReports kernel kernelVersion dev) then .error .undefinedRead
      else .ok ((answer.result (chopsReports kernel kernelVersion dev)).read,
        written (answer.result (chopsReports kernel kernelVersion dev)).bytes) := by
  have htimeout : (0 : Int) ≤ 1000 := by decide
  obtain ⟨poll, read⟩ := answer
  simp only [hidReadTimeout, if_pos htimeout, RoundAnswer.overruns, RoundAnswer.result]
  cases poll with
  | failed => rfl
  | timeout => rfl
  | ready revents =>
      simp only [PollAnswer.isReady]
      by_cases herror : revents &&& (pollError ||| pollHangUp ||| pollInvalid) = 0
      · simp only [herror, ne_eq, not_true_eq_false, if_false, decide_true, Bool.true_and, if_true]
        exact hidReadBytes_eq kernel kernelVersion dev read
      · simp only [herror, ne_eq, not_false_eq_true, if_true, decide_false, Bool.false_and,
          Bool.false_eq_true, if_false]
        rfl

end Round

end UT612
