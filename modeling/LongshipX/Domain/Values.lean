import LongshipX.Domain.Types
import LongshipX.Lib.Text

/-!
# Value objects

`Username`, `Nickname` and `PlainPassword` of `shared/value.rs`, each with the rule its `try_new` checks, so that a
value that breaks it cannot be built.

* `Username.tryNew_congr` : the user name depends on the trimmed text up to ASCII letter case only;
* `Username.tryNew_value_self`, `Nickname.tryNew_self` : an accepted name is accepted again, unchanged.
-/

namespace LongshipX
open Text

/-- `c.is_ascii_alphanumeric() || c == '_'`. -/
def isUsernameChar (c : Char) : Bool := c.isAlphanum || c == '_'

/-- `char::is_control`: the general category `Cc`. -/
def isControl (c : Char) : Bool := c.val ≤ 0x1F || (0x7F ≤ c.val && c.val ≤ 0x9F)

/-! ## User names -/

/-- `Username`: 3 to 32 bytes, letters, digits and underscores. -/
@[ext] structure Username where
  value : String
  size : 3 ≤ value.utf8ByteSize ∧ value.utf8ByteSize ≤ 32
  chars : value.toList.all isUsernameChar = true
  deriving DecidableEq

theorem isUsernameChar_toLower (c : Char) : isUsernameChar c.toLower = isUsernameChar c := by
  rcases toLower_cases c with hsame | ⟨hlow, hhigh, hlower⟩
  · rw [hsame]
  · have hupper : (c.isUpper || c.isLower) = true := Bool.or_eq_true_iff.mpr (Or.inl (decide_eq_true ⟨hlow, hhigh⟩))
    have hlowerCase : c.toLower.isLower = true := by
      show (decide (c.toLower.val ≥ 'a'.val) && decide (c.toLower.val ≤ 'z'.val)) = true
      simp only [Bool.and_eq_true, decide_eq_true_eq, ge_iff_le, UInt32.le_iff_toNat_le, hlower]
      exact ⟨Nat.add_le_add_right hlow 32, Nat.add_le_add_right hhigh 32⟩
    show ((c.toLower.isUpper || c.toLower.isLower || c.toLower.isDigit) || c.toLower == '_') =
      ((c.isUpper || c.isLower || c.isDigit) || c == '_')
    rw [hupper, hlowerCase]
    simp

theorem all_isUsernameChar_toLower (text : String) :
    text.toLower.toList.all isUsernameChar = text.toList.all isUsernameChar := by
  show (text.map Char.toLower).toList.all isUsernameChar = _
  rw [String.toList_map, List.all_map]
  refine congrArg _ (funext fun c => ?_)
  exact isUsernameChar_toLower c

theorem isWhitespace_of_isUsernameChar {c : Char} (h : isUsernameChar c = true) : isWhitespace c = false := by
  have hcases : (c.isUpper = true ∨ c.isLower = true) ∨ c.isDigit = true ∨ c = '_' := by
    have hsplit : ((c.isUpper || c.isLower || c.isDigit) || c == '_') = true := h
    simpa only [Bool.or_eq_true, beq_iff_eq, or_assoc] using hsplit
  have hrange : 0x30 ≤ c.val ∧ c.val ≤ 0x7A := by
    rcases hcases with (hupper | hlower) | hdigit | hscore
    · have hbounds : 0x41 ≤ c.val ∧ c.val ≤ 0x5A := of_decide_eq_true hupper
      exact ⟨UInt32.le_trans (by decide) hbounds.1, UInt32.le_trans hbounds.2 (by decide)⟩
    · have hbounds := Bool.and_eq_true_iff.mp hlower
      exact ⟨UInt32.le_trans (by decide) (of_decide_eq_true hbounds.1), of_decide_eq_true hbounds.2⟩
    · have hbounds := Bool.and_eq_true_iff.mp hdigit
      exact ⟨of_decide_eq_true hbounds.1, UInt32.le_trans (of_decide_eq_true hbounds.2) (by decide)⟩
    · subst hscore
      decide
  rw [UInt32.le_iff_toNat_le, UInt32.le_iff_toNat_le] at hrange
  have hlow : 0x30 ≤ c.val.toNat := hrange.1
  have hhigh : c.val.toNat ≤ 0x7A := hrange.2
  rw [← Bool.not_eq_true]
  intro hspace
  simp only [isWhitespace, Bool.or_eq_true, Bool.and_eq_true, decide_eq_true_eq, beq_iff_eq, UInt32.le_iff_toNat_le,
    ← UInt32.toNat_inj, UInt32.reduceToNat] at hspace
  omega

namespace Username

/-- `Username::try_new`. -/
def tryNew (raw : String) : Except DomainError Username :=
  let trimmed := trim raw
  if hsize : 3 ≤ trimmed.utf8ByteSize ∧ trimmed.utf8ByteSize ≤ 32 then
    if hchars : trimmed.toList.all isUsernameChar = true then
      .ok ⟨trimmed.toLower, (utf8ByteSize_toLower trimmed).symm ▸ hsize, (all_isUsernameChar_toLower trimmed).trans hchars⟩
    else .error (.invalidValue "username" "只能包含字母、数字与下划线")
  else .error (.invalidValue "username" "长度必须在 3~32 之间")

theorem tryNew_ok_iff {raw : String} {name : Username} :
    tryNew raw = .ok name ↔ (3 ≤ (trim raw).utf8ByteSize ∧ (trim raw).utf8ByteSize ≤ 32) ∧
      (trim raw).toList.all isUsernameChar = true ∧ (trim raw).toLower = name.value := by
  unfold tryNew
  dsimp only
  split_ifs with hsize hchars
  · rw [Except.ok.injEq, Username.mk.injEq]
    simp [hsize, hchars]
  · simp [hchars]
  · simp [hsize]

theorem tryNew_value {raw : String} {name : Username} (h : tryNew raw = .ok name) : name.value = (trim raw).toLower :=
  (tryNew_ok_iff.mp h).2.2.symm

/-- Texts that agree up to surrounding white space and ASCII letter case are one user name. -/
theorem tryNew_congr {raw raw' : String} {name : Username} (h : tryNew raw = .ok name)
    (heq : (trim raw').toLower = (trim raw).toLower) : tryNew raw' = .ok name := by
  obtain ⟨hsize, hchars, hvalue⟩ := tryNew_ok_iff.mp h
  refine tryNew_ok_iff.mpr ⟨?_, ?_, heq.trans hvalue⟩
  · rw [← utf8ByteSize_toLower (trim raw'), heq, utf8ByteSize_toLower]
    exact hsize
  · rw [← all_isUsernameChar_toLower (trim raw'), heq, all_isUsernameChar_toLower]
    exact hchars

theorem trim_value (name : Username) : trim name.value = name.value :=
  trim_eq_self fun c hc => isWhitespace_of_isUsernameChar (List.all_eq_true.mp name.chars c hc)

/-- **An accepted user name is its own text**: it is in lower case already, so `try_new` accepts it again. -/
theorem tryNew_value_self {raw : String} {name : Username} (h : tryNew raw = .ok name) : tryNew name.value = .ok name := by
  refine tryNew_congr h ?_
  rw [trim_value, tryNew_value h, toLower_toLower]

end Username

/-! ## Nicknames -/

/-- `Nickname`: 1 to 32 characters, none of them a control character, and nothing to trim. -/
structure Nickname where
  value : String
  trimmed : trim value = value
  count : value.toList.length ≠ 0 ∧ value.toList.length ≤ 32
  chars : value.toList.any isControl = false
  deriving DecidableEq

namespace Nickname

/-- `Nickname::try_new`. -/
def tryNew (raw : String) : Except DomainError Nickname :=
  let trimmed := trim raw
  let count := trimmed.toList.length
  if hcount : count = 0 ∨ count > 32 then .error (.invalidValue "nickname" "长度必须在 1~32 个字符之间")
  else
    if hchars : trimmed.toList.any isControl = true then .error (.invalidValue "nickname" "不允许包含控制字符")
    else .ok ⟨trimmed, trim_trim raw, by omega, Bool.eq_false_iff.mpr hchars⟩

theorem tryNew_trim {raw : String} {name : Nickname} (h : tryNew raw = .ok name) : name.value = trim raw := by
  unfold tryNew at h
  dsimp only at h
  split_ifs at h
  rw [← Except.ok.inj h]

/-- **A nickname is its own text**: `try_new` accepts it again. -/
theorem tryNew_self (name : Nickname) : tryNew name.value = .ok name := by
  unfold tryNew
  dsimp only
  have hcount : ¬ ((trim name.value).toList.length = 0 ∨ (trim name.value).toList.length > 32) := by
    rw [name.trimmed]
    have := name.count
    omega
  have hchars : ¬ (trim name.value).toList.any isControl = true := by
    rw [name.trimmed, name.chars]
    simp
  rw [dif_neg hcount, dif_neg hchars, Except.ok.injEq, Nickname.mk.injEq]
  exact name.trimmed

end Nickname

/-! ## Passwords -/

/-- `PlainPassword`: 8 to 128 bytes, none of them a control character. -/
structure PlainPassword where
  value : String
  size : 8 ≤ value.utf8ByteSize ∧ value.utf8ByteSize ≤ 128
  chars : value.toList.any isControl = false
  deriving DecidableEq

/-- `PlainPassword::try_new`. -/
def PlainPassword.tryNew (raw : String) : Except DomainError PlainPassword :=
  if hsize : 8 ≤ raw.utf8ByteSize ∧ raw.utf8ByteSize ≤ 128 then
    if hchars : raw.toList.any isControl = true then .error (.invalidValue "password" "不允许包含控制字符")
    else .ok ⟨raw, hsize, Bool.eq_false_iff.mpr hchars⟩
  else .error (.invalidValue "password" "长度必须在 8~128 字节之间")

theorem PlainPassword.tryNew_value {raw : String} {password : PlainPassword} (h : tryNew raw = .ok password) :
    password.value = raw := by
  unfold tryNew at h
  split_ifs at h
  rw [← Except.ok.inj h]

end LongshipX
