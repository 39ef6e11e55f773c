import QApr.Library.Separator
import QApr.Qt.Uuid
import QApr.Scheduler.MetaObject

/-!
# Identity of scope groups

`SchedulerScopeGroupPvt::toMd5Uuid` and `SchedulerScopeGroupPvt::scopeUuid`.  A
group is identified by the digest of its normalised scope and group names,
joined by a dot.
-/

namespace QApr.Scheduler

open QApr.Library QApr.Qt

/-- What the scheduler takes from Qt: the character data of `QString` and the MD5
digest of `QCryptographicHash`. -/
structure Platform where
  chars : CharTable
  md5 : ByteArray → Vector UInt8 16

/-- A digest from the values of its bytes. -/
def digestOf (bytes : List Nat) (full : bytes.length = 16) : Vector UInt8 16 :=
  ⟨⟨bytes.map UInt8.ofNat⟩, by simpa using full⟩

/-- An ASCII platform that knows the digests of a few texts. -/
def Platform.ascii : Platform where
  chars := .ascii
  md5 text :=
    if text.data = "default.default".toUTF8.data then
      digestOf [124, 210, 102, 69, 218, 117, 171, 153,
        2, 114, 253, 141, 184, 205, 253, 197] rfl
    else if text.data = "nightly.default".toUTF8.data then
      digestOf [194, 58, 206, 32, 84, 137, 251, 136,
        102, 169, 236, 197, 159, 35, 205, 197] rfl
    else if text.data = "a.b.c".toUTF8.data then
      digestOf [85, 63, 118, 79, 123, 67, 97, 117,
        192, 56, 126, 34, 180, 161, 146, 19] rfl
    else
      digestOf (List.replicate 16 0) rfl

/-- `QChar::toLatin1`. -/
def toLatin1 (char : Char) : Char :=
  if char.toNat ≤ 255 then char else Char.ofNat 0

/-- The loop of `toMd5Uuid` that copies the digits and inserts the hyphens. -/
def groupDigits (hashMD5 : QString) : QString :=
  (hashMD5.zipIdx 1).flatMap fun (char, i) =>
    if i = 8 ∨ i = 12 ∨ i = 16 ∨ i = 20 then [toLatin1 char, '-'] else [toLatin1 char]

/-- `SchedulerScopeGroupPvt::toMd5Uuid`. -/
def toMd5Uuid (md5 : QString) : QUuid :=
  let hashMD5 := md5.filter fun char => char ≠ '-' ∧ char ≠ '{' ∧ char ≠ '}'
  if hashMD5.length = 32 then
    QUuid.fromString ('{' :: groupDigits hashMD5 ++ ['}'])
  else
    QUuid.null

/-- `QString::toUtf8`. -/
def toUtf8 (text : QString) : ByteArray :=
  (String.ofList text).toUTF8

/-- `SchedulerScopeGroupPvt::scopeUuid`.  A pair without any name takes the uuid
that `QUuid::createUuid` returns. -/
def scopeUuid (platform : Platform) (createUuid : QUuid) (scope group : QString) : QUuid :=
  let sScope := if scope.isEmpty then [] else platform.chars.normal scope
  let sGroup := if group.isEmpty then [] else platform.chars.normal group
  let digest (listEnv : List QString) :=
    toMd5Uuid (toHex (platform.md5 (toUtf8 (List.intercalate ['.'] listEnv))).toList)
  if !sScope.isEmpty && !sGroup.isEmpty then
    digest [sScope, sGroup]
  else if !sScope.isEmpty then
    digest [sScope]
  else if !sGroup.isEmpty then
    digest [sGroup]
  else
    createUuid

/-! ## Digests become uuids without loss -/

theorem braced_groupDigits {text : QString} (full : text.length = 32) :
    '{' :: groupDigits text ++ ['}'] = QUuid.braced (text.map toLatin1) := by
  have explicit : text = List.ofFn fun index : Fin 32 => text.get (index.cast full.symm) := by
    rw [← List.ofFn_congr full, List.ofFn_get]
  rw [explicit]
  rfl

/-- A hexadecimal digit is neither a hyphen nor a brace and is a Latin-1 character. -/
theorem hexChar_plain (digit : Fin 16) :
    hexChar digit ≠ '-' ∧ hexChar digit ≠ '{' ∧ hexChar digit ≠ '}' ∧
      toLatin1 (hexChar digit) = hexChar digit := by
  revert digit
  decide

/-- A text without its separators. -/
def withoutSeparators (md5 : QString) : QString :=
  md5.filter fun char => char ≠ '-' ∧ char ≠ '{' ∧ char ≠ '}'

/-- The loop of the conversion makes the braced layout of what is left of the text. -/
theorem toMd5Uuid_of_length {md5 : QString} (full : (withoutSeparators md5).length = 32) :
    toMd5Uuid md5 = QUuid.fromString (QUuid.braced ((withoutSeparators md5).map toLatin1)) := by
  rw [← braced_groupDigits full]
  exact if_pos full

theorem toMd5Uuid_of_length_ne {md5 : QString}
    (notFull : (withoutSeparators md5).length ≠ 32) : toMd5Uuid md5 = QUuid.null :=
  if_neg notFull

theorem withoutSeparators_map_hexChar (digits : List (Fin 16)) :
    withoutSeparators (digits.map hexChar) = digits.map hexChar := by
  apply List.filter_eq_self.mpr
  intro char member
  have ⟨digit, _, isChar⟩ := List.mem_map.mp member
  have plain := hexChar_plain digit
  rw [← isChar]
  simp [plain.1, plain.2.1, plain.2.2.1]

/-- On the text of 32 digits the conversion reads exactly those digits. -/
theorem toMd5Uuid_map_hexChar {digits : List (Fin 16)} (full : digits.length = 32) :
    toMd5Uuid (digits.map hexChar) = ⟨digits, full⟩ := by
  have latin : (digits.map hexChar).map toLatin1 = digits.map hexChar := by
    simp [(hexChar_plain _).2.2.2]
  have textFull : (withoutSeparators (digits.map hexChar)).length = 32 := by
    rwa [withoutSeparators_map_hexChar, List.length_map]
  rw [toMd5Uuid_of_length textFull, withoutSeparators_map_hexChar, latin,
    QUuid.fromString_braced full]

theorem length_digitsOf_digest (digest : Vector UInt8 16) :
    (digitsOf digest.toList).length = 32 := by
  simp

theorem toMd5Uuid_toHex (digest : Vector UInt8 16) :
    toMd5Uuid (toHex digest.toList) =
      ⟨digitsOf digest.toList, length_digitsOf_digest digest⟩ :=
  toMd5Uuid_map_hexChar (length_digitsOf_digest digest)

theorem toMd5Uuid_toHex_injective :
    Function.Injective fun digest : Vector UInt8 16 => toMd5Uuid (toHex digest.toList) := by
  intro left right equal
  simp only [toMd5Uuid_toHex, QUuid.mk.injEq] at equal
  exact Vector.toList_inj.mp (digitsOf_injective equal)

/-! ## The identifying text of a scope and group pair -/

namespace Platform

variable (platform : Platform)

/-- A scope and group pair in the form that identifies it. -/
def normalPair (scope group : QString) : QString × QString :=
  (platform.chars.normal scope, platform.chars.normal group)

/-- Both names are blank, so that the pair has no identity of its own. -/
def BlankPair (scope group : QString) : Prop :=
  platform.chars.trimmed scope = [] ∧ platform.chars.trimmed group = []

instance (scope group : QString) : Decidable (platform.BlankPair scope group) :=
  inferInstanceAs (Decidable (_ ∧ _))

theorem normalPair_eq_nil_iff {scope group : QString} :
    platform.normalPair scope group = ([], []) ↔ platform.BlankPair scope group := by
  simp [normalPair, BlankPair]

/-- The uuid of a text under the platform's digest. -/
def textUuid (text : QString) : QUuid :=
  toMd5Uuid (toHex (platform.md5 (toUtf8 text)).toList)

/-- The text that is hashed for a pair of names. -/
def pairText (scope group : QString) : QString :=
  joinPair '.' (platform.normalPair scope group)

/-- The uuid of a pair with at least one name. -/
def pairUuid (scope group : QString) : QUuid :=
  platform.textUuid (platform.pairText scope group)

/-- MD5 has no collision between two texts. -/
def NoCollision (left right : QString) : Prop :=
  platform.md5 (toUtf8 left) = platform.md5 (toUtf8 right) → toUtf8 left = toUtf8 right

instance (left right : QString) : Decidable (platform.NoCollision left right) :=
  inferInstanceAs (Decidable (_ → _))

end Platform

theorem toUtf8_injective : Function.Injective toUtf8 := by
  intro left right equal
  exact String.ofList_inj.mp (String.toByteArray_inj.mp equal)

variable {platform : Platform}

theorem textUuid_inj {left right : QString} (apart : platform.NoCollision left right) :
    platform.textUuid left = platform.textUuid right ↔ left = right := by
  constructor
  · intro equal
    exact toUtf8_injective (apart (toMd5Uuid_toHex_injective equal))
  · exact congrArg platform.textUuid

/-- `scopeUuid` digests the dotted normal pair, or draws a uuid for a blank one. -/
theorem scopeUuid_eq (createUuid : QUuid) (scope group : QString) :
    scopeUuid platform createUuid scope group =
      if platform.BlankPair scope group then createUuid
      else platform.pairUuid scope group := by
  have skipEmpty (name : QString) :
      (if name.isEmpty then [] else platform.chars.normal name) =
        platform.chars.normal name := by
    cases name <;> simp
  rw [scopeUuid]
  simp only [skipEmpty]
  cases scopeName : platform.chars.normal scope <;>
    cases groupName : platform.chars.normal group <;>
    simp [← Platform.normalPair_eq_nil_iff, Platform.normalPair, scopeName, groupName,
      Platform.pairUuid, Platform.pairText, Platform.textUuid, joinPair, List.intercalate]

theorem scopeUuid_of_blank {createUuid : QUuid} {scope group : QString}
    (blank : platform.BlankPair scope group) :
    scopeUuid platform createUuid scope group = createUuid := by
  rw [scopeUuid_eq, if_pos blank]

theorem scopeUuid_of_named {createUuid : QUuid} {scope group : QString}
    (named : ¬platform.BlankPair scope group) :
    scopeUuid platform createUuid scope group =
      platform.pairUuid scope group := by
  rw [scopeUuid_eq, if_neg named]

end QApr.Scheduler
