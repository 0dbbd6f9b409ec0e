import UT612.Model.Main
import UT612.Proof.Parser.Step
import Mathlib.Logic.Relation

/-!
# The loop of `process`

Which bytes of a file the loop reads. Its bound is the size of the file less two in the arithmetic
of `size_t`, so it stays inside the file from two bytes on, and for one byte it wraps around and the
loop goes on after the only byte there is. The parser of the loop has no time column, and so none of
this depends on the clock.
-/

namespace UT612

/-- One round: the index is below the bound, and the loop goes through its body. -/
def Round (now : Nat → TimeOfDay) (data : List UInt8) (s s' : LoopState) : Prop :=
  s.i < loopBound data ∧ processRound now data s = .ok s'

/-- `processFile` comes to the condition of the loop with these variables. -/
structure AtLoop (now : Nat → TimeOfDay) (file : List UInt8) (doPrintHeader : Bool) (con : Console)
    (s : LoopState) : Prop where
  guard : file.length ≠ 0
  rounds : Relation.ReflTransGen (Round now file) (loopStart file doPrintHeader con) s

section Loop

variable {now : Nat → TimeOfDay} {data file : List UInt8} {doPrintHeader : Bool} {con : Console}
  {s s' : LoopState}

/-! ### The loop follows its rounds -/

theorem processRound_of_getElem? {byte : UInt8} (h : data[s.i]? = some byte) :
    processRound now data s =
      (processByte now byte s.p s.con).map fun r => ⟨s.i + 1, r.1, r.2⟩ := by
  simp only [processRound, h]
  cases processByte now byte s.p s.con <;> rfl

theorem processRound_of_length_le (h : data.length ≤ s.i) :
    processRound now data s = .error .undefinedRead := by
  rw [processRound, List.getElem?_eq_none h]

/-- What a round does that comes to its end. -/
theorem processRound_eq_ok (h : processRound now data s = .ok s') :
    ∃ byte r, data[s.i]? = some byte ∧ processByte now byte s.p s.con = .ok r ∧
      s' = ⟨s.i + 1, r.1, r.2⟩ := by
  cases hbyte : data[s.i]? with
  | none =>
      rw [processRound_of_length_le (List.getElem?_eq_none_iff.mp hbyte)] at h
      exact nomatch h
  | some byte =>
      rw [processRound_of_getElem? hbyte] at h
      cases hprocess : processByte now byte s.p s.con with
      | error fault =>
          rw [hprocess] at h
          exact nomatch h
      | ok r =>
          rw [hprocess] at h
          exact ⟨byte, r, rfl, hprocess, (Except.ok.inj h).symm⟩

theorem Round.index (h : Round now data s s') : s'.i = s.i + 1 := by
  obtain ⟨_, _, -, -, rfl⟩ := processRound_eq_ok h.2
  rfl

/-- The rest of the loop. -/
def LoopState.rest (now : Nat → TimeOfDay) (data : List UInt8) (s : LoopState) :
    Except Fault LoopState :=
  processLoop now data (loopBound data - s.i) s

theorem LoopState.rest_of_lt (h : s.i < loopBound data) :
    s.rest now data = processRound now data s >>= processLoop now data (loopBound data - (s.i + 1)) := by
  obtain ⟨rounds, hrounds⟩ := Nat.exists_eq_add_of_lt h
  rw [LoopState.rest, hrounds, show s.i + rounds + 1 - s.i = rounds + 1 by omega,
    show s.i + rounds + 1 - (s.i + 1) = rounds by omega]
  rfl

theorem Round.rest_eq (h : Round now data s s') : s.rest now data = s'.rest now data := by
  rw [LoopState.rest_of_lt h.1, h.2, LoopState.rest, h.index]
  rfl

theorem AtLoop.processFile_eq (h : AtLoop now file doPrintHeader con s) :
    processFile now file doPrintHeader con = (s.rest now file).map LoopState.con := by
  obtain ⟨hguard, hrounds⟩ := h
  have hrest : (loopStart file doPrintHeader con).rest now file = s.rest now file := by
    induction hrounds with
    | refl => rfl
    | tail _ hround ih => exact ih.trans hround.rest_eq
  have hstart : (loopStart file doPrintHeader con).rest now file =
      processLoop now file (loopBound file) (loopStart file doPrintHeader con) := rfl
  rw [processFile, if_pos hguard, process, ← hstart, hrest]
  cases s.rest now file <;> rfl

/-- A loop that comes to an index outside the file reads there. -/
theorem AtLoop.undefined (h : AtLoop now file doPrintHeader con s) (hbound : s.i < loopBound file)
    (hout : file.length ≤ s.i) : processFile now file doPrintHeader con = .error .undefinedRead := by
  rw [h.processFile_eq, LoopState.rest_of_lt hbound, processRound_of_length_le hout]
  rfl

/-! ### What a round keeps -/

/-- The index is at most the bound, and the parser has no time column. -/
structure LoopState.Inv (data : List UInt8) (s : LoopState) : Prop where
  index_le : s.i ≤ loopBound data
  untimed : s.p.doTimestamp = false

theorem Round.inv (h : Round now data s s') (hs : s.Inv data) : s'.Inv data := by
  obtain ⟨hbound, hround⟩ := h
  obtain ⟨byte, r, -, hprocess, rfl⟩ := processRound_eq_ok hround
  refine ⟨hbound, ?_⟩
  rw [processByte_untimed now _ hs.untimed, processByte_eq] at hprocess
  obtain rfl := Except.ok.inj hprocess
  exact (framer_step_doTimestamp _ _).trans hs.untimed

theorem AtLoop.inv (h : AtLoop now file doPrintHeader con s) : s.Inv file := by
  obtain ⟨-, hrounds⟩ := h
  induction hrounds with
  | refl => exact ⟨Nat.zero_le _, rfl⟩
  | tail _ hround ih => exact hround.inv ih

/-! ### Inside and outside -/

/-- Rounds inside the file feed its bytes to the parser. -/
theorem processLoop_eq (now : Nat → TimeOfDay) {data : List UInt8} {rounds : Nat} {s : LoopState}
    (h : s.i + rounds ≤ data.length) :
    processLoop now data rounds s =
      (processBytes now ((data.drop s.i).take rounds) s.p s.con).map
        fun r => ⟨s.i + rounds, r.1, r.2⟩ := by
  induction rounds generalizing s with
  | zero => rfl
  | succ rounds ih =>
      have hi : s.i < data.length := by omega
      rw [processLoop, processRound_of_getElem? (List.getElem?_eq_getElem hi),
        List.drop_eq_getElem_cons hi, List.take_succ_cons, processBytes]
      cases processByte now data[s.i] s.p s.con with
      | error fault => rfl
      | ok r =>
          have hrest := ih (s := ⟨s.i + 1, r.1, r.2⟩) (show s.i + 1 + rounds ≤ data.length by omega)
          rw [Nat.add_assoc, Nat.add_comm 1] at hrest
          exact hrest

/-- From two bytes on the loop comes to its end. -/
theorem exists_processFile_eq_ok (now : Nat → TimeOfDay) (doPrintHeader : Bool) (con : Console)
    (h : file.length ≠ 1) : ∃ con', processFile now file doPrintHeader con = .ok con' := by
  by_cases hne : file.length = 0
  · exact ⟨con, if_neg (not_not.mpr hne)⟩
  · have hstart : AtLoop now file doPrintHeader con (loopStart file doPrintHeader con) := ⟨hne, .refl⟩
    have hbound : loopBound file = file.length - 2 := sizeSub_of_le (by omega)
    have hinside : (loopStart file doPrintHeader con).i +
        (loopBound file - (loopStart file doPrintHeader con).i) ≤ file.length := by
      show 0 + (loopBound file - 0) ≤ file.length
      omega
    rw [hstart.processFile_eq, LoopState.rest, processLoop_eq now hinside,
      processBytes_untimed now _ hstart.inv.untimed, processBytes_eq]
    exact ⟨_, rfl⟩

/-- For a file of one byte the loop goes on after it. -/
theorem exists_atLoop_outside (now : Nat → TimeOfDay) (doPrintHeader : Bool) (con : Console)
    (h : file.length = 1) :
    ∃ s, AtLoop now file doPrintHeader con s ∧ s.i < loopBound file ∧ s.i = 1 := by
  have hbound : loopBound file = 2 ^ 64 - 1 := by
    rw [loopBound, h, sizeSub_of_lt (by decide)]
    omega
  have hbyte : file[(loopStart file doPrintHeader con).i]? = some file[0] :=
    List.getElem?_eq_getElem (show 0 < file.length by omega)
  have huntimed : (loopStart file doPrintHeader con).p.doTimestamp = false := rfl
  have hround : processRound now file (loopStart file doPrintHeader con) = _ :=
    processRound_of_getElem? hbyte
  rw [processByte_untimed now _ huntimed, processByte_eq] at hround
  have hfirst : Round now file (loopStart file doPrintHeader con) _ :=
    ⟨show 0 < loopBound file by omega, hround⟩
  exact ⟨_, ⟨by omega, .single hfirst⟩, show 1 < loopBound file by omega, rfl⟩

theorem processFile_of_length_eq_one (now : Nat → TimeOfDay) (doPrintHeader : Bool) (con : Console)
    (h : file.length = 1) : processFile now file doPrintHeader con = .error .undefinedRead := by
  obtain ⟨s, hs, hbound, hi⟩ := exists_atLoop_outside now doPrintHeader con h
  exact hs.undefined hbound (by omega)

end Loop

/-- **Reading inside the file.** Every byte the loop reads belongs to the file, and the loop ends
after at most as many rounds as the file has bytes, exactly if the file does not have one byte. For
a file of one byte `processFile` comes to a read that has no meaning. -/
theorem process_reads_inside_iff (now : Nat → TimeOfDay) (file : List UInt8) (doPrintHeader : Bool)
    (con : Console) :
    (((∀ s, AtLoop now file doPrintHeader con s →
        (s.i < loopBound file → s.i < file.length) ∧ s.i ≤ file.length) ∧
      ∃ con', processFile now file doPrintHeader con = .ok con') ↔
    file.length ≠ 1) ∧
    (file.length = 1 → processFile now file doPrintHeader con = .error .undefinedRead) := by
  refine ⟨⟨?_, ?_⟩, processFile_of_length_eq_one now doPrintHeader con⟩
  · intro h hone
    obtain ⟨s, hs, hbound, hi⟩ := exists_atLoop_outside now doPrintHeader con hone
    have hinside := (h.1 s hs).1 hbound
    omega
  · intro h
    refine ⟨fun s hs => ?_, exists_processFile_eq_ok now doPrintHeader con h⟩
    have hguard := hs.guard
    have hindex := hs.inv.index_le
    have hbound : loopBound file = file.length - 2 := sizeSub_of_le (by omega)
    omega

/-- Not every file is read inside its bounds. A single byte is not. -/
theorem exists_read_outside :
    (¬ ∀ (now : Nat → TimeOfDay) (file : List UInt8) (doPrintHeader : Bool) (con : Console) s,
      AtLoop now file doPrintHeader con s → s.i < loopBound file → s.i < file.length) ∧
    processFile Clock.stopped.now [0x41] true .empty = .error .undefinedRead := by
  have hlength : ([0x41] : List UInt8).length = 1 := rfl
  refine ⟨fun h => ?_, processFile_of_length_eq_one Clock.stopped.now true .empty hlength⟩
  obtain ⟨s, hs, hbound, hi⟩ := exists_atLoop_outside Clock.stopped.now true .empty hlength
  have hinside := h Clock.stopped.now [0x41] true .empty s hs hbound
  rw [hi] at hinside
  exact absurd hinside (by decide)

end UT612
