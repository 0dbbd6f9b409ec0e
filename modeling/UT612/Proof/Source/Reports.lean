import UT612.Proof.Source.Events

/-!
# Reports

Which bytes of a report the main loop forwards. Its inner loop runs up to the length byte of the
report and not to the number of bytes received, so it stays inside the report exactly if the length
byte does. Reports with such a length byte make the main loop a list of events, the same for every
clock, every heap and every console.
-/

namespace UT612

open Dispatch

variable {now : Nat → TimeOfDay} {source : UT612ByteSource} {heap : Heap} {con : Console}
  {r : HidRead} {results : List HidRead}

/-! ### One report -/

theorem HidRead.length_bytes_le (r : HidRead) : r.bytes.length ≤ dataSize := by
  cases r with
  | error => exact Nat.zero_le dataSize
  | report bytes h => exact h

theorem HidRead.data_eq_ok_iff {i : Nat} {byte : UInt8} :
    r.data i = .ok byte ↔ r.bytes[i]? = some byte := by
  rw [HidRead.data]
  cases r.bytes[i]? <;> simp

theorem HidRead.one_lt_read_iff : 1 < r.read ↔ 1 < r.bytes.length := by
  cases r with
  | error => decide
  | report bytes _ => exact Nat.one_lt_cast

theorem HidRead.read_of_one_lt (h : 1 < r.read) : r.read = r.bytes.length := by
  cases r with
  | error => exact absurd h (by decide)
  | report bytes _ => rfl

theorem HidRead.read_of_cons {length : UInt8} {payload : List UInt8}
    (h : r.bytes = length :: payload) : r.read = (payload.length + 1 : Nat) := by
  cases r with
  | error => cases h
  | report bytes _ => exact congrArg (fun bytes => (bytes.length : Int)) h

/-- Only a report that has a byte after its length byte is looked into. -/
theorem HidRead.bytes_of_one_lt (h : 1 < r.read) :
    ∃ length byte payload, r.bytes = length :: byte :: payload := by
  have hlength := HidRead.one_lt_read_iff.mp h
  match r.bytes, hlength with
  | length :: byte :: payload, _ => exact ⟨length, byte, payload, rfl⟩

/-- The length byte of a report is at most the number of bytes after it, if there are any. -/
def HidRead.Fits (r : HidRead) : Prop :=
  1 < r.read → ∀ length ∈ r.bytes.head?, (length.toNat : Int) ≤ r.read - 1

instance (r : HidRead) : Decidable r.Fits :=
  haveI : Decidable (∀ length ∈ r.bytes.head?, (length.toNat : Int) ≤ r.read - 1) :=
    Option.decidableForallMem r.bytes.head?
  inferInstanceAs (Decidable (_ → _))

theorem HidRead.fits_iff :
    r.Fits ↔ ∀ length payload, r.bytes = length :: payload → payload ≠ [] →
      length.toNat ≤ payload.length := by
  rw [HidRead.Fits, HidRead.one_lt_read_iff]
  constructor
  · intro h length payload hbytes hpayload
    have hread := HidRead.read_of_cons hbytes
    have hpos := List.length_pos_of_ne_nil hpayload
    have hfits := h (by simp [hbytes, hpos]) length (by simp [hbytes])
    omega
  · intro h hlength length hhead
    obtain ⟨payload, hbytes⟩ := List.head?_eq_some_iff.mp hhead
    have hread := HidRead.read_of_cons hbytes
    rw [hbytes, List.length_cons] at hlength
    have hfits := h length payload hbytes (List.ne_nil_of_length_pos (by omega))
    omega

/-- The bytes of a report up to its length byte. -/
def HidRead.forwarded (r : HidRead) : List UInt8 :=
  match r.bytes with
  | [] => []
  | length :: payload => payload.take length.toNat

/-- The inner loop, as long as it stays inside the report. -/
theorem forwardLoop_eq (now : Nat → TimeOfDay) (source : UT612ByteSource) {i n : Nat}
    (h : i + n < r.bytes.length) (heap : Heap) (con : Console) :
    forwardLoop now source r.data (List.range' i n) heap con =
      (ofCalls (broadcast source.byteSinks ((r.bytes.drop (i + 1)).take n))).foldlM
        (RunEvent.perform now) (heap, con) := by
  induction n generalizing i heap con with
  | zero => rfl
  | succ n ih =>
      have hi : i + 1 < r.bytes.length := by omega
      have hdata : r.data (i + 1) = .ok r.bytes[i + 1] :=
        HidRead.data_eq_ok_iff.mpr (List.getElem?_eq_getElem hi)
      have hrest : i + 1 + n < r.bytes.length := by omega
      rw [List.range'_succ, forwardLoop, hdata, List.drop_eq_getElem_cons hi, List.take_succ_cons,
        ofCalls_broadcast_cons, List.foldlM_append, ← notifyAllByteSinks_eq_foldlM]
      simp only [ih hrest]
      rfl

/-! ### Rounds as events -/

theorem warnNoReport_eq (source : UT612ByteSource) (read : Int) (con : Console) :
    warnNoReport source read con = con.err (warnNoReport source read .empty).cerr := by
  simp only [warnNoReport]
  split_ifs <;> simp [Console.err, Console.empty]

theorem warnLength_eq (numUartRxBytes : Nat) (read : Int) (con : Console) :
    warnLength numUartRxBytes read con = con.err (warnLength numUartRxBytes read .empty).cerr := by
  simp only [warnLength]
  split_ifs <;> simp [Console.err, Console.empty]

/-- A round without a report has nothing to forward. -/
theorem roundStart_of_not_one_lt (h : ¬ 1 < r.read) (con : Console) :
    roundStart source r.read r.data con = .ok ([], warnNoReport source r.read con) := if_neg h

/-- A round with a report forwards as many bytes as its length byte says. -/
theorem roundStart_of_one_lt {length : UInt8} (h : 1 < r.read) (hlength : r.data 0 = .ok length)
    (con : Console) :
    roundStart source r.read r.data con =
      .ok (List.range length.toNat, warnLength length.toNat r.read con) := by
  have hwarn : warnNoReport source r.read con = con := by
    rw [warnNoReport, if_neg (by omega), if_neg (by omega)]
  rw [roundStart, if_pos h, hwarn, hlength]
  rfl

/-- What a round says on `cerr`. -/
def HidRead.warning (source : UT612ByteSource) (r : HidRead) : Text :=
  match r.bytes with
  | length :: _ :: _ => (warnLength length.toNat r.read .empty).cerr
  | _ => (warnNoReport source r.read .empty).cerr

def roundEvents (source : UT612ByteSource) (r : HidRead) : List RunEvent :=
  .message (r.warning source) :: ofCalls (broadcast source.byteSinks r.forwarded)

theorem HidRead.warning_of_not_one_lt (h : ¬ 1 < r.read) :
    r.warning source = (warnNoReport source r.read .empty).cerr := by
  rw [HidRead.one_lt_read_iff] at h
  rw [HidRead.warning]
  split
  · next hbytes => simp [hbytes] at h
  · rfl

theorem HidRead.forwarded_of_not_one_lt (h : ¬ 1 < r.read) : r.forwarded = [] := by
  rw [HidRead.one_lt_read_iff] at h
  rw [HidRead.forwarded]
  split
  · rfl
  · next length payload hbytes =>
      rw [hbytes, List.length_cons] at h
      rw [List.eq_nil_of_length_eq_zero (show payload.length = 0 by omega), List.take_nil]

theorem mainLoopRound_eq (now : Nat → TimeOfDay) (source : UT612ByteSource) (h : r.Fits)
    (heap : Heap) (con : Console) :
    mainLoopRound now source r heap con =
      (roundEvents source r).foldlM (RunEvent.perform now) (heap, con) := by
  by_cases hread : 1 < r.read
  · obtain ⟨length, byte, payload, hbytes⟩ := HidRead.bytes_of_one_lt hread
    have hfits := HidRead.fits_iff.mp h length (byte :: payload) hbytes (List.cons_ne_nil _ _)
    have hdata : r.data 0 = .ok length := HidRead.data_eq_ok_iff.mpr (by rw [hbytes]; rfl)
    have hforwarded : r.forwarded = (r.bytes.drop (0 + 1)).take length.toNat := by
      simp only [HidRead.forwarded, hbytes, Nat.zero_add, List.drop_one, List.tail_cons]
    have hwarning : r.warning source = (warnLength length.toNat r.read .empty).cerr := by
      simp only [HidRead.warning, hbytes]
    have hinside : 0 + length.toNat < r.bytes.length := by
      rw [hbytes, List.length_cons]
      omega
    have hloop := forwardLoop_eq now source hinside heap
      (con.err (warnLength length.toNat r.read .empty).cerr)
    rw [mainLoopRound, mainLoopBody, roundStart_of_one_lt hread hdata, roundEvents, hforwarded,
      hwarning, List.foldlM_cons, RunEvent.perform]
    refine Eq.trans ?_ hloop
    rw [← warnLength_eq, ← List.range_eq_range']
    rfl
  · rw [mainLoopRound, mainLoopBody, roundStart_of_not_one_lt hread, roundEvents,
      HidRead.forwarded_of_not_one_lt hread, HidRead.warning_of_not_one_lt hread, warnNoReport_eq]
    rfl

/-- **The main loop** over reports that fit is a list of events. -/
theorem mainLoop_eq (now : Nat → TimeOfDay) (source : UT612ByteSource)
    (h : ∀ r ∈ results, r.Fits) (heap : Heap) (con : Console) :
    mainLoop now source results heap con =
      (results.flatMap (roundEvents source)).foldlM (RunEvent.perform now) (heap, con) := by
  induction results generalizing heap con with
  | nil => rfl
  | cons r results ih =>
      obtain ⟨hr, hresults⟩ := List.forall_mem_cons.mp h
      rw [List.flatMap_cons, List.foldlM_append, mainLoop, mainLoopRound_eq now source hr]
      simp only [ih hresults]

/-- The bytes forwarded are passed to every sink. -/
theorem calls_events (source : UT612ByteSource) (results : List HidRead) :
    calls (results.flatMap (roundEvents source)) =
      broadcast source.byteSinks (results.flatMap HidRead.forwarded) := by
  induction results with
  | nil => rfl
  | cons r results ih =>
      have hround : calls (roundEvents source r) = broadcast source.byteSinks r.forwarded :=
        calls_ofCalls _
      rw [List.flatMap_cons, List.flatMap_cons, calls_append, hround, ih, broadcast_append]

/-- On a working clock the main loop comes to its end. -/
theorem mainLoop_eq_ok (clock : Clock) (hsinks : ∀ a ∈ source.byteSinks, heap a ≠ none)
    (h : ∀ r ∈ results, r.Fits) (con : Console) :
    mainLoop clock.now source results heap con =
      .ok (runner.finish heap (results.flatMap (roundEvents source)),
        (runner.outputs heap (results.flatMap (roundEvents source))).foldl
          (RunOutput.print clock) con) := by
  rw [mainLoop_eq clock.now source h]
  apply foldlM_perform_eq
  intro call hcall
  rw [calls_events] at hcall
  exact hsinks call.1 (fst_mem_of_mem_broadcast hcall)

/-! ### Where `data` is read -/

/-- The main loop comes to a call of `notifyAllByteSinks` with this report and this index: the
rounds before have returned, the round has come to its inner loop, and the calls for the indices
before this one have returned. -/
inductive AtForward (now : Nat → TimeOfDay) (source : UT612ByteSource) (heap : Heap)
    (con : Console) : List HidRead → HidRead → Nat → Prop where
  | mk {before after : List HidRead} {r : HidRead} {visited rest : List Nat} {i : Nat}
      {atRound atCall : Heap × Console} {atLoop : Console}
      (hbefore : mainLoop now source before heap con = .ok atRound)
      (hstart : roundStart source r.read r.data atRound.2 = .ok (visited ++ i :: rest, atLoop))
      (hcalls : forwardLoop now source r.data visited atRound.1 atLoop = .ok atCall) :
      AtForward now source heap con (before ++ r :: after) r i

/-- An index of the inner loop is below the length byte. -/
theorem index_lt_of_roundStart {visited rest : List Nat} {i : Nat} {con' : Console}
    (h : roundStart source r.read r.data con = .ok (visited ++ i :: rest, con')) :
    1 < r.read ∧ ∃ length, r.data 0 = .ok length ∧ i < length.toNat := by
  by_cases hread : 1 < r.read
  · obtain ⟨length, byte, payload, hbytes⟩ := HidRead.bytes_of_one_lt hread
    have hlength : r.data 0 = .ok length := HidRead.data_eq_ok_iff.mpr (by rw [hbytes]; rfl)
    rw [roundStart_of_one_lt hread hlength] at h
    obtain ⟨hindices, -⟩ := Prod.mk.inj (Except.ok.inj h)
    have hi : i ∈ List.range length.toNat := by simp [hindices]
    exact ⟨hread, length, hlength, List.mem_range.mp hi⟩
  · rw [roundStart_of_not_one_lt hread] at h
    obtain ⟨hindices, -⟩ := Prod.mk.inj (Except.ok.inj h)
    simp at hindices

theorem mainLoop_append (now : Nat → TimeOfDay) (source : UT612ByteSource)
    (before after : List HidRead) (heap : Heap) (con : Console) :
    mainLoop now source (before ++ after) heap con =
      (mainLoop now source before heap con).bind fun s => mainLoop now source after s.1 s.2 := by
  induction before generalizing heap con with
  | nil => rfl
  | cons r before ih =>
      rw [List.cons_append, mainLoop, mainLoop]
      cases mainLoopRound now source r heap con with
      | error fault => rfl
      | ok s => exact ih s.1 s.2

theorem forwardLoop_append (now : Nat → TimeOfDay) (source : UT612ByteSource)
    (data : Nat → Except Fault UInt8) (before after : List Nat) (heap : Heap) (con : Console) :
    forwardLoop now source data (before ++ after) heap con =
      (forwardLoop now source data before heap con).bind
        fun s => forwardLoop now source data after s.1 s.2 := by
  induction before generalizing heap con with
  | nil => rfl
  | cons i before ih =>
      rw [List.cons_append, forwardLoop, forwardLoop]
      cases data (i + 1) with
      | error fault => rfl
      | ok byte =>
          cases hnotify : notifyAllByteSinks now byte source heap con with
          | error fault =>
              simp only [bind, Except.bind, hnotify]
          | ok s =>
              simp only [bind, Except.bind, hnotify]
              exact ih s.1 s.2

/-- A loop that comes to an index after the report reads there. -/
theorem AtForward.undefined {i : Nat} (h : AtForward now source heap con results r i)
    (hout : r.read ≤ i + 1) : mainLoop now source results heap con = .error .undefinedRead := by
  obtain @⟨before, after, _, visited, rest, _, atRound, atCall, atLoop, hbefore, hstart, hcalls⟩ := h
  have hread := (index_lt_of_roundStart hstart).1
  have hdata : r.data (i + 1) = .error .undefinedRead := by
    rw [HidRead.read_of_one_lt hread] at hout
    rw [HidRead.data, List.getElem?_eq_none (by omega)]
  have hloop : forwardLoop now source r.data (visited ++ i :: rest) atRound.1 atLoop =
      .error .undefinedRead := by
    rw [forwardLoop_append, hcalls, Except.bind, forwardLoop, hdata]
    rfl
  have hround : mainLoopRound now source r atRound.1 atRound.2 = .error .undefinedRead := by
    rw [mainLoopRound, mainLoopBody, hstart]
    exact hloop
  rw [mainLoop_append, hbefore, Except.bind, mainLoop, hround]
  rfl

theorem AtForward.mem {i : Nat} (h : AtForward now source heap con results r i) : r ∈ results := by
  obtain ⟨-, -, -⟩ := h
  exact List.mem_append_right _ List.mem_cons_self

/-- In a report that fits the loop reads what has been received after the length byte. -/
theorem AtForward.inside {i : Nat} (h : AtForward now source heap con results r i) (hr : r.Fits) :
    (i + 1 : Nat) < r.read ∧ i + 1 < dataSize ∧
      ∃ byte ∈ r.bytes.tail, r.data (i + 1) = .ok byte := by
  obtain ⟨-, hstart, -⟩ := h
  obtain ⟨hread, length, hlength, hindex⟩ := index_lt_of_roundStart hstart
  have hfits := hr hread _ (List.head?_eq_getElem?.trans (HidRead.data_eq_ok_iff.mp hlength))
  have hsize := HidRead.length_bytes_le r
  rw [HidRead.read_of_one_lt hread] at hfits ⊢
  have hi : i + 1 < r.bytes.length := by omega
  have htail : i < r.bytes.tail.length := by
    rw [List.length_tail]
    omega
  refine ⟨by omega, by omega, r.bytes.tail[i], List.getElem_mem htail, ?_⟩
  rw [HidRead.data_eq_ok_iff, List.getElem_tail, List.getElem?_eq_getElem hi]

/-- In a report that does not fit the loop goes on after the last byte received. -/
theorem exists_atForward_outside (clock : Clock) (hsinks : ∀ a ∈ source.byteSinks, heap a ≠ none)
    {before : List HidRead} (hbefore : ∀ r ∈ before, r.Fits) (hr : ¬ r.Fits)
    (after : List HidRead) (con : Console) :
    ∃ i, AtForward clock.now source heap con (before ++ r :: after) r i ∧
      r.read = (i + 1 : Nat) := by
  simp only [HidRead.fits_iff, not_forall, Nat.not_le] at hr
  obtain ⟨length, payload, hbytes, hpayload, hlt⟩ := hr
  have hpos := List.length_pos_of_ne_nil hpayload
  have hsize : r.bytes.length = payload.length + 1 := by rw [hbytes, List.length_cons]
  have hread := HidRead.read_of_cons hbytes
  have hlength : r.data 0 = .ok length := HidRead.data_eq_ok_iff.mpr (by rw [hbytes]; rfl)
  have hrounds := mainLoop_eq_ok clock hsinks hbefore con
  have hstay : ∀ a ∈ source.byteSinks,
      runner.finish heap (before.flatMap (roundEvents source)) a ≠ none :=
    fun a ha => finish_runner_ne_none (hsinks a ha) _
  have hone : 1 < r.read := by omega
  have hstart : roundStart source r.read r.data
      ((runner.outputs heap (before.flatMap (roundEvents source))).foldl
        (RunOutput.print clock) con) = _ := roundStart_of_one_lt hone hlength _
  obtain ⟨rest, hrest⟩ := Nat.exists_eq_add_of_lt hlt
  have hsplit : List.range length.toNat =
      List.range payload.length ++ payload.length :: List.range' (payload.length + 1) rest := by
    have happend : List.range' 0 payload.length ++ List.range' (0 + payload.length) (rest + 1) =
        List.range' 0 (payload.length + (rest + 1)) := List.range'_append_1
    rw [Nat.zero_add, List.range'_succ] at happend
    rw [hrest, List.range_eq_range', List.range_eq_range', happend, Nat.add_assoc]
  rw [hsplit] at hstart
  have hinside : 0 + payload.length < r.bytes.length := by omega
  have hcalls := forwardLoop_eq clock.now source hinside
    (runner.finish heap (before.flatMap (roundEvents source)))
    (warnLength length.toNat r.read
      ((runner.outputs heap (before.flatMap (roundEvents source))).foldl
        (RunOutput.print clock) con))
  rw [← List.range_eq_range', foldlM_broadcast_eq clock hstay] at hcalls
  exact ⟨payload.length, .mk hrounds hstart hcalls, hread⟩

/-- A run stops at the first report that does not fit. -/
theorem mainLoop_eq_error (clock : Clock) (hsinks : ∀ a ∈ source.byteSinks, heap a ≠ none)
    (hmisfit : ∃ r ∈ results, ¬ r.Fits) (con : Console) :
    ∃ r i, AtForward clock.now source heap con results r i ∧ r.read = (i + 1 : Nat) ∧
      mainLoop clock.now source results heap con = .error .undefinedRead := by
  obtain ⟨r, hr, hnot⟩ := hmisfit
  obtain ⟨first, hfirst⟩ : ∃ first, results.find? (fun r => decide (¬ r.Fits)) = some first := by
    rw [← Option.isSome_iff_exists, List.find?_isSome]
    exact ⟨r, hr, decide_eq_true hnot⟩
  obtain ⟨hnot, before, after, rfl, hbefore⟩ := List.find?_eq_some_iff_append.mp hfirst
  have hfits : ∀ r ∈ before, r.Fits := by
    intro r hr
    simpa using hbefore r hr
  obtain ⟨i, hat, hread⟩ :=
    exists_atForward_outside clock hsinks hfits (of_decide_eq_true hnot) after con
  exact ⟨first, i, hat, hread, hat.undefined hread.le⟩

/-- **Forwarding received bytes.** Every byte that the main loop passes on is one of those received
after the length byte of its report, exactly if no length byte is too large. The main loop then comes
to its end, and has passed on to each sink, in their order, the bytes of each report up to its length
byte. If a length byte is too large the loop comes to a read that has no meaning. -/
theorem forwards_received_iff (clock : Clock) (source : UT612ByteSource) {heap : Heap}
    (hsinks : ∀ a ∈ source.byteSinks, heap a ≠ none) (results : List HidRead) (con : Console) :
    ((∀ r i, AtForward clock.now source heap con results r i →
      (i + 1 : Nat) < r.read ∧ i + 1 < dataSize ∧
        ∃ byte ∈ r.bytes.tail, r.data (i + 1) = .ok byte) ↔
    ∀ r ∈ results, r.Fits) ∧
    ((∀ r ∈ results, r.Fits) →
      ∃ events after,
        mainLoop clock.now source results heap con = .ok after ∧
        mainLoop clock.now source results heap con =
          events.foldlM (RunEvent.perform clock.now) (heap, con) ∧
        calls events = broadcast source.byteSinks (results.flatMap HidRead.forwarded)) ∧
    ((∃ r ∈ results, ¬ r.Fits) →
      mainLoop clock.now source results heap con = .error .undefinedRead) := by
  refine ⟨⟨?_, fun h r i hat => hat.inside (h r hat.mem)⟩, ?_, ?_⟩
  · intro h r hr
    by_contra hmisfit
    obtain ⟨first, i, hat, hread, -⟩ := mainLoop_eq_error clock hsinks ⟨r, hr, hmisfit⟩ con
    have hinside := (h first i hat).1
    omega
  · intro h
    exact ⟨_, _, mainLoop_eq_ok clock hsinks h con, mainLoop_eq clock.now source h heap con,
      calls_events source results⟩
  · intro hmisfit
    obtain ⟨_, _, -, -, hrun⟩ := mainLoop_eq_error clock hsinks hmisfit con
    exact hrun

/-- A source that saves bytes, and the file before the first of them. -/
def savingSource : UT612ByteSource := registerByteSink 1 (newByteSource false)

def savingHeap : Heap := Function.update (fun _ => none) 1 (some (.file ⟨[]⟩))

theorem savingHeap_ne_none : ∀ a ∈ savingSource.byteSinks, savingHeap a ≠ none := by
  intro a ha
  rw [List.mem_singleton.mp ha]
  decide

/-- What a timeout brings. -/
def HidRead.timeout : HidRead := .report [] (by decide)

/-- A report with one byte after its length byte, and a timeout. -/
def letterReports : List HidRead := [.report [1, 0x41] (by decide), .timeout]

/-- A report of two bytes whose length byte counts itself. -/
def selfCounting : HidRead := .report [2, 0x41] (by decide)

theorem forwards_received_iff_letter :
    (∀ r ∈ letterReports, r.Fits) ∧
      (∀ r i, AtForward Clock.stopped.now savingSource savingHeap .empty letterReports r i →
        (i + 1 : Nat) < r.read ∧ i + 1 < dataSize ∧
          ∃ byte ∈ r.bytes.tail, r.data (i + 1) = .ok byte) ∧
      (∃ events after,
        mainLoop Clock.stopped.now savingSource letterReports savingHeap .empty = .ok after ∧
        mainLoop Clock.stopped.now savingSource letterReports savingHeap .empty =
          events.foldlM (RunEvent.perform Clock.stopped.now) (savingHeap, .empty) ∧
        calls events = [(1, 0x41)]) ∧
      mainLoop Clock.stopped.now savingSource (letterReports ++ [selfCounting]) savingHeap .empty =
        .error .undefinedRead := by
  have hfits : ∀ r ∈ letterReports, r.Fits := by decide
  have hmisfit : ∃ r ∈ letterReports ++ [selfCounting], ¬ r.Fits := by decide
  obtain ⟨hinside, hpassed, -⟩ :=
    forwards_received_iff Clock.stopped savingSource savingHeap_ne_none letterReports .empty
  obtain ⟨-, -, hstops⟩ := forwards_received_iff Clock.stopped savingSource savingHeap_ne_none
    (letterReports ++ [selfCounting]) .empty
  exact ⟨hfits, hinside.mpr hfits, hpassed hfits, hstops hmisfit⟩

/-- Not every byte passed on has been received. -/
theorem exists_not_received :
    (¬ ∀ (now : Nat → TimeOfDay) (source : UT612ByteSource) (heap : Heap) (con : Console)
      (results : List HidRead) (r : HidRead) (i : Nat),
      AtForward now source heap con results r i → (i + 1 : Nat) < r.read) ∧
    mainLoop Clock.stopped.now savingSource [selfCounting] savingHeap .empty =
      .error .undefinedRead := by
  have hmisfit : ∃ r ∈ [selfCounting], ¬ r.Fits := by decide
  obtain ⟨r, i, hat, hread, hrun⟩ :=
    mainLoop_eq_error Clock.stopped savingHeap_ne_none hmisfit .empty
  refine ⟨fun h => ?_, hrun⟩
  have hinside := h _ _ _ _ _ r i hat
  omega

end UT612
