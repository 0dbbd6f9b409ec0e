import UT612.Proof.Decoder.Grammar

/-!
# The fields of a row

No text a row is made of contains a tab or a newline: the lookups return fixed names, and a number
consists of digits, a point and a sign. A row can therefore be taken apart again at its tabs, and it
stays on one line.
-/

namespace UT612

open Decimal

/-- A text that can be a field of a table: it breaks neither a column nor a line. -/
def IsField (text : Text) : Prop := '\t' ∉ text ∧ '\n' ∉ text

instance (text : Text) : Decidable (IsField text) := inferInstanceAs (Decidable (_ ∧ _))

theorem IsField.append {s t : Text} (hs : IsField s) (ht : IsField t) : IsField (s ++ t) := by
  simp only [IsField, List.mem_append, not_or]
  exact ⟨⟨hs.1, ht.1⟩, hs.2, ht.2⟩

theorem isField_of_isDigits {s : Text} (h : IsDigits s) : IsField s :=
  ⟨h.not_mem rfl, h.not_mem rfl⟩

theorem isField_text {x : Numeral} (h : x.IsDecimal) : IsField x.text := by
  have hsign : IsField (if x.negative then ['-'] else []) := by
    cases x.negative <;> decide
  have hpoint : IsField ['.'] := by decide
  have hwhole := isField_of_isDigits h.whole_digits
  have hfraction := isField_of_isDigits h.fraction_digits
  exact (hsign.append hwhole).append (hpoint.append hfraction)

theorem switchText_isField {cases : List (UInt8 × String)} {onDefault : Text} {key : UInt8}
    {text : Text} (hcases : ∀ p ∈ cases, IsField p.2.toList)
    (h : switchText cases onDefault key = .ok text) : IsField text := by
  obtain ⟨name, hmem, rfl⟩ := mem_of_switchText h
  exact hcases (key, name) hmem

theorem mMode2String_isField {mMode flags : UInt8} {text : Text}
    (h : mMode2String mMode flags = .ok text) : IsField text := by
  rw [mMode2String, bind_eq_ok_iff] at h
  obtain ⟨mode, hmode, h⟩ := h
  have hfield : IsField mode := switchText_isField (by decide) hmode
  have hp : IsField "p".toList := by decide
  have hs : IsField "s".toList := by decide
  split_ifs at h
  · exact Except.ok.inj h ▸ hfield.append hp
  · exact Except.ok.inj h ▸ hfield.append hs
  · exact Except.ok.inj h ▸ hfield

theorem valueText_isField {msb lsb decimals segments : UInt8} (hsegments : 4 ≤ segments.toNat)
    {errorCases : List (UInt8 × String)} (hcases : ∀ p ∈ errorCases, IsField p.2.toList)
    {onDefault : Text} {flags : UInt8} {text : Text}
    (h : valueText msb lsb decimals segments errorCases onDefault flags = .ok text) :
    IsField text := by
  by_cases hnumber : flags = 0 ∨ flags = 128
  · rw [valueText_of_number hnumber] at h
    have hdisplayable := (bits2Number_isOk_iff hsegments).mp ⟨text, h⟩
    rw [bits2Number_eq_ok hsegments hdisplayable] at h
    exact Except.ok.inj h ▸ isField_text (isDecimal_shownNumeral _ _ _ _)
  · rw [valueText_of_not_number hnumber] at h
    exact switchText_isField hcases h

theorem Decodes.isField {w : Window} {r : Row} (h : Decodes w r) :
    ∀ field ∈ r.fields, IsField field := by
  have hmvalue := h.mvalue
  have hsvalue := h.svalue
  rw [mValueText_eq] at hmvalue
  rw [sValueText_eq] at hsvalue
  simp only [Row.fields, List.forall_mem_cons]
  exact ⟨mMode2String_isField h.mmode, valueText_isField (by decide) (by decide) hmvalue,
    switchText_isField (by decide) h.mUnit, switchText_isField (by decide) h.sMode,
    valueText_isField (by decide) (by decide) hsvalue, switchText_isField (by decide) h.sUnit,
    switchText_isField (by decide) h.freq, List.forall_mem_nil _⟩

theorem Decodes.newline_notMem_text {w : Window} {r : Row} (h : Decodes w r) : '\n' ∉ r.text := by
  have hfields := h.isField
  simp only [Row.fields, List.forall_mem_cons, IsField] at hfields
  simp [Row.text, Row.fields, List.intercalate, List.intersperse, hfields]

/-- A row taken apart at its tabs gives its fields. -/
theorem Decodes.splitOn_text {w : Window} {r : Row} (h : Decodes w r) :
    r.text.splitOn '\t' = r.fields :=
  List.splitOn_intercalate '\t' (fun field hfield => (h.isField field hfield).1) (by simp [Row.fields])

end UT612
