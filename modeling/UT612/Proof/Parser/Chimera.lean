import UT612.Proof.Parser.Stream
import Mathlib.Tactic.IntervalCases

/-!
# No chimera

The frames the decoder accepts form a comma-free code: the end of one and the beginning of the next
never make up a third. There is no checksum to tell them apart, and no single byte does; for each of
the 16 places at which two frames can be cut, some byte of one of the three frames has two values to
take that exclude each other. So a parser out of step with the meter prints no values at all.
-/

namespace UT612

open Segmentation Delimited

theorem Window.Terminated.last_bytes {w : Window} (h : w.Terminated) :
    w[15] = 0x0d ∧ w[16] = 0x0a := by
  have hdrop := List.suffix_iff_eq_drop.mp h
  rw [w.length_eq] at hdrop
  have h15 := congrArg (fun bytes => bytes[0]?) hdrop
  have h16 := congrArg (fun bytes => bytes[1]?) hdrop
  simp only [List.getElem?_drop] at h15 h16
  exact ⟨(Option.some.inj (h15.trans (w.getElem?_bytes (by decide)))).symm,
    (Option.some.inj (h16.trans (w.getElem?_bytes (by decide)))).symm⟩

/-! ### Sixteen shifts -/

section Straddle

variable {before f : Window} {e i j : Nat}

theorem straddle_left (h : e ≤ frameSize) {hj : j < frameSize} {hi : i < frameSize} (hij : e + i = j) :
    (straddle before f e h)[i] = before[j] := by
  apply Option.some.inj
  rw [← Window.getElem?_bytes _ hi, ← Window.getElem?_bytes _ hj, straddle,
    List.getElem?_append_left (by rw [List.length_drop, before.length_eq]; omega),
    List.getElem?_drop, hij]

theorem straddle_right (h : e ≤ frameSize) {hj : j < frameSize} {hi : i < frameSize}
    (hij : frameSize - e + j = i) : (straddle before f e h)[i] = f[j] := by
  apply Option.some.inj
  have hlength : (before.bytes.drop e).length = frameSize - e := by
    rw [List.length_drop, before.length_eq]
  rw [← Window.getElem?_bytes _ hi, ← Window.getElem?_bytes _ hj, straddle,
    List.getElem?_append_right (by omega), hlength, List.getElem?_take_of_lt (by omega), ← hij,
    Nat.add_sub_cancel_left]

/-- No measurement mode is an error flag of the secondary value. -/
theorem not_mmode_of_svalueFlags :
    ∀ b ∈ ([0, 128, 162, 129, 195] : List UInt8), b ∉ ([1, 2, 3, 4] : List UInt8) := by
  intro b h
  simp only [List.mem_cons, List.not_mem_nil, or_false] at h
  rcases h with rfl | rfl | rfl | rfl | rfl <;> decide

/-- **Accepted frames are comma-free.** What two of them straddle is not accepted. -/
theorem eq_of_accepted_straddle (hbefore : before.Accepted) (hf : f.Accepted) (hpos : 0 < e)
    (he : e ≤ frameSize) (h : (straddle before f e he).Accepted) : e = frameSize := by
  by_contra hne
  have hlt : e < frameSize := he.lt_of_ne hne
  have hb := before.row_isOk_iff.mp hbefore.row
  have hg := f.row_isOk_iff.mp hf.row
  have hs := (straddle before f e he).row_isOk_iff.mp h.row
  have hb16 := hbefore.terminated.last_bytes.2
  obtain ⟨hs15, hs16⟩ := h.terminated.last_bytes
  -- one byte of one of the three frames for each shift
  interval_cases e
  · have hbyte : (straddle before f 1 he)[15] = before[16] := straddle_left he rfl
    exact nomatch hs15.symm.trans (hbyte.trans hb16)
  · have hbyte : (straddle before f 2 he)[15] = f[0] := straddle_right he rfl
    exact nomatch hs15.symm.trans (hbyte.trans hg.zero)
  · have hbyte : (straddle before f 3 he)[0] = before[3] := straddle_left he rfl
    exact absurd (hbyte.symm.trans hs.zero ▸ hb.freq) (by decide)
  · have hbyte : (straddle before f 4 he)[16] = f[3] := straddle_right he rfl
    exact absurd (hbyte.symm.trans hs16 ▸ hg.freq) (by decide)
  · have hbyte : (straddle before f 5 he)[15] = f[3] := straddle_right he rfl
    exact absurd (hbyte.symm.trans hs15 ▸ hg.freq) (by decide)
  · have hbyte : (straddle before f 6 he)[16] = f[5] := straddle_right he rfl
    exact absurd (hbyte.symm.trans hs16 ▸ hg.mmode) (by decide)
  · have hbyte : (straddle before f 7 he)[15] = f[5] := straddle_right he rfl
    exact absurd (hbyte.symm.trans hs15 ▸ hg.mmode) (by decide)
  · have hbyte : (straddle before f 8 he)[14] = f[5] := straddle_right he rfl
    exact not_mmode_of_svalueFlags _ hs.svalueFlags (hbyte ▸ hg.mmode)
  · have hbyte : (straddle before f 9 he)[5] = before[14] := straddle_left he rfl
    exact not_mmode_of_svalueFlags _ hb.svalueFlags (hbyte ▸ hs.mmode)
  · have hbyte : (straddle before f 10 he)[16] = f[9] := straddle_right he rfl
    exact absurd (hbyte.symm.trans hs16 ▸ hg.mvalueFlags) (by decide)
  · have hbyte : (straddle before f 11 he)[15] = f[9] := straddle_right he rfl
    exact absurd (hbyte.symm.trans hs15 ▸ hg.mvalueFlags) (by decide)
  · have hbyte : (straddle before f 12 he)[15] = f[10] := straddle_right he rfl
    exact absurd (hbyte.symm.trans hs15 ▸ hg.sMode) (by decide)
  · have hbyte : (straddle before f 13 he)[3] = before[16] := straddle_left he rfl
    exact absurd (hbyte.trans hb16 ▸ hs.freq) (by decide)
  · have hbyte : (straddle before f 14 he)[3] = f[0] := straddle_right he rfl
    exact absurd (hbyte.trans hg.zero ▸ hs.freq) (by decide)
  · have hbyte : (straddle before f 15 he)[16] = f[14] := straddle_right he rfl
    exact absurd (hbyte.symm.trans hs16 ▸ hg.svalueFlags) (by decide)
  · have hbyte : (straddle before f 16 he)[15] = f[14] := straddle_right he rfl
    exact absurd (hbyte.symm.trans hs15 ▸ hg.svalueFlags) (by decide)

end Straddle

/-! ### Every cut -/

theorem length_joined (frames : List Window) (k : Nat) :
    (joined frames k).length = frameSize * frames.length - k := by
  rw [joined, List.length_drop, length_flatMap_bytes]

/-- Every window cut ends with a carriage return and a line feed. -/
theorem Tracks.cut_terminated {p : UT612ByteStreamParser} {bytes : List UInt8} {i : Nat} {c : Cut}
    (h : Tracks p []) (hcut : (framer.trace p bytes)[i]? = some (some c)) : c.window.Terminated := by
  have hentry := congrArg (fun entries => entries[i]?) (h.trace_bytes bytes)
  simp only [List.getElem?_map, hcut, Option.map_some] at hentry
  obtain ⟨segment, hsegment, hbytes⟩ := Option.map_eq_some_iff.mp hentry.symm
  obtain ⟨s, rfl, hs⟩ := Option.map_eq_some_iff.mp hbytes
  have hstop := (suffix_of_getElem?_trace hsegment).2
  rw [Window.Terminated, ← hs]
  apply List.suffix_of_suffix_length_le hstop.2 (List.drop_suffix _ _)
  have hlength := hstop.1
  have htwo : 2 ≤ frameSize := by decide
  rw [List.length_drop, List.length_cons, List.length_singleton]
  omega

/-- The window ends `place` bytes into a stream of frames: it is made of the end of one frame and the
first bytes of the next, which are all of them if it is a whole frame. -/
def EndsAt (frames : List Window) (place : Nat) (w : Window) : Prop :=
  ∃ j before f e, ∃ he : e ≤ frameSize, 0 < e ∧ place = frameSize * j + e ∧
    frames[j]? = some f ∧ before ∈ frames ∧ (e < frameSize → frames[j - 1]? = some before ∧ 0 < j) ∧
    w = straddle before f e he

section Cuts

variable {p : UT612ByteStreamParser} {i : Nat} {c : Cut}

theorem Tracks.endsAt_of_zero {frames : List Window} (h : Tracks p [])
    (hframes : ∀ f ∈ frames, f.Terminated)
    (hcut : (framer.trace p (joined frames 0))[i]? = some (some c))
    (hi : i < frameSize * frames.length) : EndsAt frames (i + 1) c.window := by
  have hj : i / frameSize < frames.length := Nat.div_lt_of_lt_mul hi
  have hf : frames[i / frameSize]? = some frames[i / frameSize] := List.getElem?_eq_getElem hj
  have hentry := h.cut_at_end_of_zero hframes (Nat.mod_lt i (by decide)) hf
  rw [Nat.div_add_mod, hcut, Option.map_some, Option.map_some, Option.some_inj] at hentry
  have hend : i % frameSize + 1 = frameSize := by
    by_contra hne
    rw [if_neg hne] at hentry
    exact nomatch hentry
  rw [if_pos hend, Option.some_inj] at hentry
  refine ⟨i / frameSize, _, _, frameSize, le_rfl, by decide, ?_, hf, List.getElem_mem hj,
    fun hlt => absurd hlt (lt_irrefl _), ?_⟩
  · have := Nat.div_add_mod i frameSize
    omega
  · rw [straddle_of_eq le_rfl rfl, hentry]

theorem Tracks.endsAt_of_pos {first : Window} {fs : List Window} {k : Nat} (h : Tracks p [])
    (hframes : ∀ f ∈ first :: fs, f.Terminated) (hpos : 0 < k) (hk : k ≤ frameSize)
    (hcut : (framer.trace p (joined (first :: fs) k))[i]? = some (some c))
    (hi : i < frameSize * (fs.length + 1) - k) : EndsAt (first :: fs) (i + k + 1) c.window := by
  have hlate : frameSize - k ≤ i := by
    by_contra hearly
    rw [(h.join first fs hpos hk).2, List.getElem?_append_left
      (by rw [List.length_replicate]; omega), List.getElem?_replicate_of_lt (by omega)] at hcut
    exact nomatch hcut
  obtain ⟨m, rfl⟩ := Nat.exists_eq_add_of_le hlate
  have hm : m < frameSize * fs.length := by
    rw [Nat.mul_succ] at hi
    omega
  have hj : m / frameSize < fs.length := Nat.div_lt_of_lt_mul hm
  have hf : fs[m / frameSize]? = some fs[m / frameSize] := List.getElem?_eq_getElem hj
  obtain ⟨before, hbefore, hentry⟩ := h.cut_of_pos hframes hpos hk (Nat.mod_lt m (by decide)) hf
  rw [Nat.div_add_mod, hcut, Option.map_some, Option.map_some, Option.some_inj] at hentry
  have hend : m % frameSize + 1 = nextEnd 0x0d 0x0a fs[m / frameSize].bytes
      (phase 0x0d 0x0a k ((fs.take (m / frameSize)).map Window.bytes)) := by
    by_contra hne
    rw [if_neg hne] at hentry
    exact nomatch hentry
  rw [if_pos hend, Option.some_inj] at hentry
  refine ⟨m / frameSize + 1, before, _, _, Nat.mod_lt m (by decide), Nat.succ_pos _, ?_, hf,
    List.mem_of_getElem? hbefore, fun _ => ⟨hbefore, Nat.succ_pos _⟩, hentry⟩
  have := Nat.div_add_mod m frameSize
  rw [Nat.mul_succ]
  omega

/-- A window cut from a stream of frames ends where it is cut. -/
theorem Tracks.endsAt {frames : List Window} {k : Nat} (h : Tracks p [])
    (hframes : ∀ f ∈ frames, f.Terminated) (hk : k ≤ frameSize)
    (hcut : (framer.trace p (joined frames k))[i]? = some (some c)) :
    EndsAt frames (i + k + 1) c.window := by
  have hi : i < frameSize * frames.length - k := by
    rw [← length_joined, ← Transducer.length_trace]
    exact (List.getElem?_eq_some_iff.mp hcut).1
  rcases Nat.eq_zero_or_pos k with rfl | hpos
  · exact h.endsAt_of_zero hframes hcut hi
  · cases frames with
    | nil =>
        rw [List.length_nil, Nat.mul_zero, Nat.zero_sub] at hi
        exact absurd hi i.not_lt_zero
    | cons first fs => exact h.endsAt_of_pos hframes hpos hk hcut hi

/-- What one cut of a stream of accepted frames can be. -/
theorem Tracks.cut_accepted {frames : List Window} {k : Nat} (h : Tracks p [])
    (hframes : ∀ f ∈ frames, f.Accepted) (hk : k ≤ frameSize)
    (hcut : (framer.trace p (joined frames k))[i]? = some (some c)) :
    (∃ j, frames[j]? = some c.window ∧ i + k + 1 = frameSize * (j + 1)) ∨
      ∃ j before f e, 0 < e ∧ e < frameSize ∧ frames[j]? = some before ∧ frames[j + 1]? = some f ∧
        i + k + 1 = frameSize * (j + 1) + e ∧
        c.window.bytes = before.bytes.drop e ++ f.bytes.take e ∧
        (∃ what, c.window.row = .error (.runtimeError what)) ∧ c.window.values = [] := by
  obtain ⟨j, before, f, e, he, hpos, hplace, hf, hbefore, hbetween, hwindow⟩ :=
    h.endsAt (fun f hf => (hframes f hf).terminated) hk hcut
  rcases he.eq_or_lt with rfl | hlt
  · left
    rw [straddle_of_eq he rfl] at hwindow
    exact ⟨j, hwindow ▸ hf, hplace⟩
  · right
    obtain ⟨hprev, hj⟩ := hbetween hlt
    obtain ⟨i, rfl⟩ := Nat.exists_eq_add_of_le' hj
    have hterm : (straddle before f e he).Terminated := hwindow ▸ h.cut_terminated hcut
    have hrow : ¬ Grammar c.window := by
      intro hgrammar
      rw [hwindow] at hgrammar
      have haccepted : (straddle before f e he).Accepted :=
        ⟨hterm, (Window.row_isOk_iff _).mpr hgrammar⟩
      exact absurd (eq_of_accepted_straddle (hframes before hbefore)
        (hframes f (List.mem_of_getElem? hf)) hpos he haccepted) hlt.ne
    obtain ⟨what, hwhat⟩ := Window.row_eq_error hrow
    refine ⟨i, before, f, e, hpos, hlt, hprev, hf, hplace, congrArg Window.bytes hwindow,
      ⟨what, hwhat⟩, ?_⟩
    rw [Window.values, hwhat]

end Cuts

/-! ### In stream order -/

theorem Tracks.outputs_bytes {p : UT612ByteStreamParser} {pending : List UInt8}
    (h : Tracks p pending) (bytes : List UInt8) :
    (framer.outputs p bytes).map (fun c => c.window.bytes) =
      ((segmenter FrameEnd).outputs pending bytes).map lastBytes := by
  have hmap := congrArg (List.map Prod.fst) (h.outputs_seen bytes)
  rw [List.map_map, List.map_map] at hmap
  exact hmap

/-- One frame, read after the rest of the one before, gives one window. -/
theorem Tracks.frame {p : UT612ByteStreamParser} {prev f : Window} {s : Nat}
    (h : Tracks p (prev.bytes.drop s)) (hprev : prev.Terminated) (hf : f.Terminated)
    (hs : s ≤ frameSize) :
    ∃ e, ∃ he : e ≤ frameSize, 0 < e ∧ (straddle prev f e he).Terminated ∧
      (framer.outputs p f.bytes).map Cut.window = [straddle prev f e he] ∧
      Tracks (framer.finish p f.bytes) (f.bytes.drop e) := by
  have he := hf.isWord.nextEnd_le_length hs
  obtain ⟨hle, hends⟩ := hf.isWord.nextEnd_mem hs
  obtain ⟨htrace, hfinish⟩ := run_word (by decide) hprev.isWord hf.isWord hs
  refine ⟨nextEnd 0x0d 0x0a f.bytes s, he, ?_, hends.trans (List.suffix_append _ _), ?_, ?_⟩
  · have htwo := two_le_of_suffix hends
    rw [List.length_take] at htwo
    omega
  · apply List.map_injective_iff.mpr fun _ _ => Window.ext
    rw [List.map_map]
    refine (h.outputs_bytes f.bytes).trans ?_
    have houtputs : (segmenter FrameEnd).outputs (prev.bytes.drop s) f.bytes =
        [prev.bytes.drop s ++ f.bytes.take (nextEnd 0x0d 0x0a f.bytes s)] := by
      rw [Transducer.outputs, htrace, List.reduceOption_append, List.reduceOption_cons_of_some,
        List.reduceOption_replicate_none, List.reduceOption_replicate_none, List.nil_append]
    rw [houtputs, List.map_singleton, lastBytes_straddle hle he, List.map_singleton]
  · exact hfinish ▸ h.finish f.bytes

/-- The windows with a row are some of the frames, in their order. -/
theorem Tracks.accepted_sublist {p : UT612ByteStreamParser} {prev : Window} {fs : List Window}
    {s : Nat} (h : Tracks p (prev.bytes.drop s)) (hprev : prev.Accepted)
    (hfs : ∀ f ∈ fs, f.Accepted) (hs : s ≤ frameSize) :
    (((framer.outputs p (fs.flatMap Window.bytes)).map Cut.window).filter
      fun w => w.row.isOk).Sublist fs := by
  induction fs generalizing p prev s with
  | nil => exact List.Sublist.refl []
  | cons f fs ih =>
      have hf := hfs f List.mem_cons_self
      obtain ⟨e, he, hpos, hterm, houtputs, htracks⟩ := h.frame hprev.terminated hf.terminated hs
      have hrest := ih htracks hf (fun g hg => hfs g (List.mem_cons_of_mem f hg)) he
      rw [List.flatMap_cons, Transducer.outputs_append, List.map_append, houtputs,
        List.singleton_append, List.filter_cons]
      by_cases hrow : (straddle prev f e he).row.isOk = true
      · have haccepted : (straddle prev f e he).Accepted := ⟨hterm, isOk_iff.mp hrow⟩
        have hend := eq_of_accepted_straddle hprev hf hpos he haccepted
        rw [if_pos hrow, straddle_of_eq he hend]
        exact hrest.cons_cons f
      · rw [if_neg hrow]
        exact hrest.cons f

theorem Tracks.joined_sublist {p : UT612ByteStreamParser} {frames : List Window} {k : Nat}
    (h : Tracks p []) (hframes : ∀ f ∈ frames, f.Accepted) (hk : k ≤ frameSize) :
    (((framer.outputs p (joined frames k)).map Cut.window).filter
      fun w => w.row.isOk).Sublist frames := by
  cases frames with
  | nil =>
      rw [joined, List.flatMap_nil, List.drop_nil]
      exact List.Sublist.refl []
  | cons first fs =>
      have hfirst := hframes first List.mem_cons_self
      rcases Nat.eq_zero_or_pos k with rfl | hpos
      · have htracks : Tracks p (first.bytes.drop frameSize) := by
          rwa [List.drop_of_length_le first.length_eq.le]
        exact htracks.accepted_sublist hfirst hframes le_rfl
      · obtain ⟨htracks, htrace⟩ := h.join first fs hpos hk
        have hrest := htracks.accepted_sublist hfirst
          (fun f hf => hframes f (List.mem_cons_of_mem first hf)) hk
        rw [Transducer.outputs, htrace, List.reduceOption_append, List.reduceOption_replicate_none,
          List.nil_append]
        exact hrest.cons first

/-- **No chimera.** A parser that joins a stream of accepted frames anywhere prints only rows of
these frames. Each window it cuts is one of them, cut at its last byte, or is rejected with a
`runtime_error`; those it prints come in the order of the stream, none of them twice. -/
theorem no_chimera (clock : Clock) (doTimestamp : Bool) (con : Console) (frames : List Window)
    (hframes : ∀ f ∈ frames, f.Accepted) (k : Nat) (hk : k ≤ frameSize) :
    (∀ i c, (framer.trace (freshParser doTimestamp) (joined frames k))[i]? = some (some c) →
      (∃ j, frames[j]? = some c.window ∧ i + k + 1 = frameSize * (j + 1)) ∨
      ∃ j before f e, 0 < e ∧ e < frameSize ∧ frames[j]? = some before ∧ frames[j + 1]? = some f ∧
        i + k + 1 = frameSize * (j + 1) + e ∧
        c.window.bytes = before.bytes.drop e ++ f.bytes.take e ∧
        (∃ what, c.window.row = .error (.runtimeError what)) ∧ c.window.values = []) ∧
    ∃ windows p con',
      windows = (framer.outputs (freshParser doTimestamp) (joined frames k)).map Cut.window ∧
      processBytes clock.now (joined frames k) (freshParser doTimestamp) con = .ok (p, con') ∧
      con'.cout = con.cout ++
        (windows.mapIdx fun i w =>
          frameLine (UInt64.ofNat i) (stamp clock doTimestamp (con.clockReads + i)) w).flatten ∧
      (windows.filter fun w => w.row.isOk).Sublist frames := by
  have htracks := tracks_freshParser doTimestamp
  refine ⟨fun i c hcut => htracks.cut_accepted hframes hk hcut, _, _, _, rfl,
    processBytes_eq clock _ _ con, ?_, htracks.joined_sublist hframes hk⟩
  exact cout_of_freshParser clock doTimestamp con (joined frames k)

/-- A reader that joins after the first byte cuts a straddle of two frames, at the delimiter inside the
second of them, and is back in step with the third. -/
theorem no_chimera_shifted :
    (∀ i c, (framer.trace (freshParser false)
        (joined [delimiterFrame, delimiterFrame, phaseFrame] 1))[i]? = some (some c) →
      (∃ j, [delimiterFrame, delimiterFrame, phaseFrame][j]? = some c.window ∧
        i + 1 + 1 = frameSize * (j + 1)) ∨
      (∃ what, c.window.row = .error (.runtimeError what)) ∧ c.window.values = []) ∧
    ∃ (windows : List Window) (p : UT612ByteStreamParser) (con' : Console),
      windows.map Window.bytes =
        [delimiterFrame.bytes.drop 8 ++ delimiterFrame.bytes.take 8, phaseFrame.bytes] ∧
      processBytes Clock.stopped.now (joined [delimiterFrame, delimiterFrame, phaseFrame] 1)
        (freshParser false) .empty = .ok (p, con') ∧
      con'.cout = "0\t\n1\tRs\t0.5002\tkOhm\ttheta\t-0.1\tDeg\t100KHz\n".toList ∧
      (windows.filter fun w => w.row.isOk).Sublist [delimiterFrame, delimiterFrame, phaseFrame] := by
  have hframes : ∀ f ∈ [delimiterFrame, delimiterFrame, phaseFrame], f.Accepted := by
    intro f hf
    simp only [List.mem_cons, List.not_mem_nil, or_false] at hf
    rcases hf with rfl | rfl | rfl
    · exact accepted_delimiterFrame
    · exact accepted_delimiterFrame
    · exact accepted_phaseFrame
  obtain ⟨hcuts, windows, p, con', hwindows, hrun, hcout, hsublist⟩ :=
    no_chimera Clock.stopped false .empty _ hframes 1 (by decide)
  constructor
  · intro i c hcut
    rcases hcuts i c hcut with hwhole | ⟨_, _, _, _, -, -, -, -, -, -, hrejected⟩
    · exact .inl hwhole
    · exact .inr hrejected
  · refine ⟨windows, p, con', ?_, hrun, hcout.trans ?_, hsublist⟩
    · rw [hwindows]
      decide +kernel
    · rw [hwindows]
      decide +kernel

end UT612
