import Mathlib.Data.List.DropRight

/-!
# Trimming text and ASCII letter case

`trim` removes leading and trailing characters with the Unicode `White_Space` property, as Rust's
`str::trim` does (Lean's own trims ASCII blanks only). `String.toLower` is Rust's `to_ascii_lowercase`.

* `trim_trim` : trimming twice is trimming once; `trimmed_trim` : nothing is left at the ends; `trim_eq_self` : a text without white space;
* `toLower_cases` : what lower case does to a character; `toLower_toLower` : lowering twice is lowering once;
* `utf8ByteSize_toLower` : lower case keeps the size of a text;
* `parseUnsigned` : `str::parse` for unsigned integers; `parseUnsigned_le` : the number is in range; `parseUnsigned_repr` : a
  decimal numeral is read as its number.
-/

namespace Text

/-- The Unicode `White_Space` property. -/
def isWhitespace (c : Char) : Bool :=
  (0x09 ≤ c.val && c.val ≤ 0x0D) || c.val == 0x20 || c.val == 0x85 || c.val == 0xA0 || c.val == 0x1680 ||
    (0x2000 ≤ c.val && c.val ≤ 0x200A) || c.val == 0x2028 || c.val == 0x2029 || c.val == 0x202F ||
    c.val == 0x205F || c.val == 0x3000

/-- `str::trim`. -/
def trim (text : String) : String :=
  String.ofList ((text.toList.dropWhile isWhitespace).reverse.dropWhile isWhitespace).reverse

theorem toList_trim (text : String) :
    (trim text).toList = (text.toList.dropWhile isWhitespace).rdropWhile isWhitespace := by
  rw [trim, String.toList_ofList, List.rdropWhile]

theorem dropWhile_trim (text : String) : (trim text).toList.dropWhile isWhitespace = (trim text).toList := by
  rw [toList_trim]
  generalize text.toList = cs
  rw [List.dropWhile_eq_self_iff]
  intro hpos hspace
  obtain ⟨back, hback⟩ := List.rdropWhile_prefix isWhitespace (cs.dropWhile isWhitespace)
  have hne : cs.dropWhile isWhitespace ≠ [] := by
    intro hnil
    rw [hnil] at hpos
    simp at hpos
  have hhead : (cs.dropWhile isWhitespace).head hne = ((cs.dropWhile isWhitespace).rdropWhile isWhitespace)[0] := by
    simp only [List.head_eq_getElem]
    conv_lhs => rw [List.getElem_of_eq hback.symm]
    exact List.getElem_append_left hpos
  have hnot := List.head_dropWhile_not isWhitespace hne
  rw [hhead, hspace] at hnot
  cases hnot

theorem rdropWhile_trim (text : String) : (trim text).toList.rdropWhile isWhitespace = (trim text).toList := by
  rw [toList_trim, List.rdropWhile_idempotent]

theorem trim_trim (text : String) : trim (trim text) = trim text := by
  rw [← String.toList_inj, toList_trim (trim text), dropWhile_trim, rdropWhile_trim]

/-- There is no white space at either end. -/
def Trimmed (text : String) : Prop :=
  (∀ c ∈ text.toList.head?, isWhitespace c = false) ∧ ∀ c ∈ text.toList.getLast?, isWhitespace c = false

theorem trimmed_trim (text : String) : Trimmed (trim text) := by
  refine ⟨fun c hc => ?_, fun c hc => ?_⟩
  · obtain ⟨rest, hrest⟩ := List.head?_eq_some_iff.mp hc
    have hfront := dropWhile_trim text
    rw [hrest, List.dropWhile_cons] at hfront
    split_ifs at hfront with hspace
    · have hlength := congrArg List.length hfront
      have hle := (List.dropWhile_sublist isWhitespace : (rest.dropWhile isWhitespace).Sublist rest).length_le
      rw [List.length_cons] at hlength
      omega
    · exact Bool.eq_false_iff.mpr hspace
  · have hne : (trim text).toList ≠ [] := List.ne_nil_of_mem (List.mem_of_getLast? hc)
    have hback := List.rdropWhile_eq_self_iff.mp (rdropWhile_trim text) hne
    rw [Option.mem_def, List.getLast?_eq_some_getLast hne, Option.some.injEq] at hc
    rw [hc] at hback
    exact Bool.eq_false_iff.mpr hback

theorem trim_eq_self {text : String} (h : ∀ c ∈ text.toList, isWhitespace c = false) : trim text = text := by
  rw [← String.toList_inj, toList_trim]
  have hfront : text.toList.dropWhile isWhitespace = text.toList := by
    rw [List.dropWhile_eq_self_iff]
    intro hpos hspace
    rw [h _ (List.getElem_mem hpos)] at hspace
    cases hspace
  rw [hfront, List.rdropWhile_eq_self_iff]
  intro hne hspace
  rw [h _ (List.getLast_mem hne)] at hspace
  cases hspace

/-- Lower case leaves a character alone or moves it by 32. -/
theorem toLower_cases (c : Char) :
    c.toLower = c ∨ (65 ≤ c.val.toNat ∧ c.val.toNat ≤ 90 ∧ c.toLower.val.toNat = c.val.toNat + 32) := by
  unfold Char.toLower
  split
  · next h =>
    have hlow : 65 ≤ c.val.toNat := h.1
    have hhigh : c.val.toNat ≤ 90 := h.2
    refine Or.inr ⟨hlow, hhigh, ?_⟩
    have hshift : ('a'.val - 'A'.val).toNat = 32 := rfl
    simp only [UInt32.toNat_add, hshift]
    omega
  · exact Or.inl rfl

theorem charToLower_toLower (c : Char) : c.toLower.toLower = c.toLower := by
  rcases toLower_cases c with hsame | ⟨hlow, -, hlower⟩
  · rw [hsame, hsame]
  · rcases toLower_cases c.toLower with hagain | ⟨-, hhigh, -⟩
    · exact hagain
    · omega

theorem toLower_toLower (text : String) : text.toLower.toLower = text.toLower := by
  show (text.map Char.toLower).map Char.toLower = text.map Char.toLower
  rw [← String.toList_inj, String.toList_map, String.toList_map, List.map_map]
  exact List.map_congr_left fun c _ => charToLower_toLower c

theorem utf8Size_toLower (c : Char) : c.toLower.utf8Size = c.utf8Size := by
  rcases toLower_cases c with hsame | ⟨-, hhigh, hlower⟩
  · rw [hsame]
  · rw [Char.utf8Size_eq_one_iff.mpr, Char.utf8Size_eq_one_iff.mpr]
    · rw [UInt32.le_iff_toNat_le]
      exact Nat.le_trans hhigh (by decide)
    · rw [UInt32.le_iff_toNat_le, hlower]
      exact Nat.le_trans (Nat.add_le_add_right hhigh 32) (by decide)

theorem utf8ByteSize_toLower (text : String) : text.toLower.utf8ByteSize = text.utf8ByteSize := by
  have hlist : ∀ cs : List Char, (String.ofList (cs.map Char.toLower)).utf8ByteSize = (String.ofList cs).utf8ByteSize := by
    intro cs
    induction cs with
    | nil => rfl
    | cons c cs ih =>
        rw [List.map_cons, String.ofList_cons, String.ofList_cons, String.utf8ByteSize_append,
          String.utf8ByteSize_append, ih, String.utf8ByteSize_singleton, String.utf8ByteSize_singleton, utf8Size_toLower]
  have hlower := hlist text.toList
  rwa [← String.toList_map, String.ofList_toList, String.ofList_toList] at hlower

/-! ## Numbers -/

/-- The value of a decimal digit. -/
def digitValue (c : Char) : Nat := c.toNat - '0'.toNat

/-- `str::parse` for the unsigned integer type with this maximum: a sign `+` or none, then ASCII digits. -/
def parseUnsigned (max : Nat) (text : String) : Option Nat :=
  let digits := match text.toList with
    | '+' :: rest => rest
    | chars => chars
  if digits.isEmpty || !digits.all Char.isDigit then none
  else
    let value := digits.foldl (fun value c => 10 * value + digitValue c) 0
    if value ≤ max then some value else none

theorem parseUnsigned_le {max value : Nat} {text : String} (h : parseUnsigned max text = some value) : value ≤ max := by
  simp only [parseUnsigned] at h
  split_ifs at h with hdigits hle
  rw [← Option.some.inj h]
  exact hle

/-- A decimal digit is neither white space nor a sign. -/
theorem isDigit_plain {c : Char} (h : c.isDigit = true) : isWhitespace c = false ∧ c ≠ '+' := by
  obtain ⟨hlow, hhigh⟩ : 48 ≤ c.val.toNat ∧ c.val.toNat ≤ 57 := Char.isDigit_iff_toNat.mp h
  constructor
  · simp only [isWhitespace, Bool.or_eq_false_iff, Bool.and_eq_false_iff, decide_eq_false_iff_not, beq_eq_false_iff_ne,
      UInt32.le_iff_toNat_le, ne_eq, ← UInt32.toNat_inj]
    simp only [UInt32.toNat_ofNat]
    omega
  · rintro rfl
    exact absurd hlow (by decide)

theorem isDigit_of_mem_repr {n : Nat} {c : Char} (hc : c ∈ n.repr.toList) : c.isDigit = true :=
  Nat.isDigit_of_mem_toDigits (by decide) (by decide) (Nat.toList_repr (n := n) ▸ hc)

theorem trim_repr (n : Nat) : trim n.repr = n.repr := trim_eq_self fun _ hc => (isDigit_plain (isDigit_of_mem_repr hc)).1

/-- **A decimal numeral is read as its number.** -/
theorem parseUnsigned_repr {max n : Nat} (h : n ≤ max) : parseUnsigned max n.repr = some n := by
  have hvalue : n.repr.toList.foldl (fun value c => 10 * value + digitValue c) 0 = n := by
    rw [Nat.toList_repr]
    exact Nat.ofDigitChars_ten_toDigits
  have hdigits : n.repr.toList.all Char.isDigit = true := List.all_eq_true.mpr fun _ hc => isDigit_of_mem_repr hc
  have hne : n.repr.toList ≠ [] := Nat.toList_repr (n := n) ▸ Nat.toDigits_ne_nil
  unfold parseUnsigned
  dsimp only
  split
  · next rest hchars =>
      have hsign : '+' ∈ n.repr.toList := hchars ▸ List.mem_cons_self
      exact absurd rfl (isDigit_plain (isDigit_of_mem_repr hsign)).2
  · rw [hdigits, hvalue, List.isEmpty_eq_false_iff.mpr hne, if_neg (by decide), if_pos h]

end Text
