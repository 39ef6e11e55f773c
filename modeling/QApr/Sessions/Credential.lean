import QApr.Library.LastWriter
import QApr.Qt.Variant

/-!
# Session credentials

`SessionCredential::setBody` reads six entries of a hash, and `toVariant` writes five of
them: the token is missing.  The module compares a credential with one that has read
what it has written.
-/

namespace QApr.Sessions

open QApr.Library QApr.Qt

/-- `QVariantHash`, as the list of its entries. -/
abbrev VariantHash (Variant : Type) := List (List Char × Variant)

/-- `QVariant`, and the conversions of `QStm::VariantUtil`. -/
structure VariantUtil (Variant : Type) where
  invalid : Variant
  ofUuid : QUuid → Variant
  ofHash : VariantHash Variant → Variant
  isValid : Variant → Bool
  isNull : Variant → Bool
  toUuid : Variant → QUuid
  toHash : Variant → VariantHash Variant

/-- A uuid or a hash is converted to itself. -/
structure VariantUtil.Converts {Variant : Type} (vu : VariantUtil Variant) : Prop where
  toUuid : ∀ uuid, vu.toUuid (vu.ofUuid uuid) = uuid
  toHash : ∀ hash, vu.toHash (vu.ofHash hash) = hash

/-- The fields of `CredentialsPvt`. -/
structure CredentialsPvt (Variant : Type) where
  body : VariantHash Variant
  id : QUuid
  scopeId : QUuid
  permits : VariantHash Variant
  profile : Variant
  session : Variant
  token : Variant

/-- A setter of `SessionCredential`. -/
inductive CredentialCall (Variant : Type) where
  | setBody (value : VariantHash Variant)
  | setId (value : Variant)
  | setScopeId (uuid : Variant)
  | setProfile (value : Variant)
  | setSession (value : Variant)
  | setToken (value : Variant)
  | setPermits (permits : VariantHash Variant)

section Credential

variable {Variant : Type} (vu : VariantUtil Variant)

/-- `QVariantHash::value`; the value of a missing key is invalid. -/
def VariantUtil.value (hash : VariantHash Variant) (key : List Char) : Variant :=
  (hash.lookup key).getD vu.invalid

namespace CredentialsPvt

variable (p : CredentialsPvt Variant)

/-- A credential after its construction. -/
def new : CredentialsPvt Variant where
  body := []
  id := .null
  scopeId := .null
  permits := []
  profile := vu.invalid
  session := vu.invalid
  token := vu.invalid

/-- `SessionCredential::setBody`. -/
def setBody (p : CredentialsPvt Variant) (value : VariantHash Variant) :
    CredentialsPvt Variant :=
  { p with
    body := value
    id := vu.toUuid (vu.value value "id".toList)
    scopeId := vu.toUuid (vu.value value "scopeId".toList)
    profile := vu.value value "profile".toList
    session := vu.value value "session".toList
    token := vu.value value "token".toList
    permits := vu.toHash (vu.value value "permits".toList) }

/-- `SessionCredential::toVariant`, without the token. -/
def toVariant : VariantHash Variant :=
  [("id".toList, vu.ofUuid p.id), ("scopeId".toList, vu.ofUuid p.scopeId),
    ("profile".toList, p.profile), ("session".toList, p.session),
    ("permits".toList, vu.ofHash p.permits)]

/-- `SessionCredential::isValid`. -/
def isValid : Bool :=
  if p.id = .null || !vu.isValid p.token || vu.isNull p.token then false else true

/-- A call of a setter. -/
def call : CredentialCall Variant → CredentialsPvt Variant
  | .setBody value => setBody vu p value
  | .setId value => { p with id := vu.toUuid value }
  | .setScopeId uuid => { p with scopeId := vu.toUuid uuid }
  | .setProfile value => { p with profile := value }
  | .setSession value => { p with session := value }
  | .setToken value => { p with token := value }
  | .setPermits permits => { p with permits }

/-- A sequence of calls. -/
def run (calls : List (CredentialCall Variant)) : CredentialsPvt Variant :=
  calls.foldl (call vu) p

end CredentialsPvt

/-- Two credentials agree on everything but the body. -/
structure Agrees (left right : CredentialsPvt Variant) : Prop where
  id : left.id = right.id
  scopeId : left.scopeId = right.scopeId
  profile : left.profile = right.profile
  session : left.session = right.session
  permits : left.permits = right.permits
  token : left.token = right.token
  isValid : left.isValid vu = right.isValid vu

/-- A credential that reads what another one has written agrees with it. -/
def RoundTrips (credential other : CredentialsPvt Variant) : Prop :=
  Agrees vu (other.setBody vu (credential.toVariant vu)) credential

/-- The token that a call sets. -/
def tokenSet : CredentialCall Variant → Option Variant
  | .setBody value => some (vu.value value "token".toList)
  | .setToken value => some value
  | _ => none

end Credential

section RoundTrip

variable {Variant : Type} {vu : VariantUtil Variant}

open CredentialsPvt

/-- The token is the last one that was set. -/
theorem token_run (credential : CredentialsPvt Variant)
    (calls : List (CredentialCall Variant)) :
    (credential.run vu calls).token =
      (lastWritten (tokenSet vu) calls).getD credential.token := by
  apply @read_foldl _ _ _ (tokenSet vu) (call vu) CredentialsPvt.token
  intro credential call
  cases call <;> rfl

/-- What is read from the hash of a credential is the credential without its token. -/
theorem setBody_toVariant (converts : vu.Converts) (credential other : CredentialsPvt Variant) :
    other.setBody vu (credential.toVariant vu) =
      { credential with body := credential.toVariant vu, token := vu.invalid } := by
  have id : vu.value (credential.toVariant vu) "id".toList = vu.ofUuid credential.id := rfl
  have scopeId : vu.value (credential.toVariant vu) "scopeId".toList =
    vu.ofUuid credential.scopeId := rfl
  have permits : vu.value (credential.toVariant vu) "permits".toList =
    vu.ofHash credential.permits := rfl
  rw [setBody, id, scopeId, permits, converts.toUuid, converts.toUuid, converts.toHash]
  rfl

/-- A credential survives the round trip exactly if it has no token. -/
theorem roundTrips_iff_token (converts : vu.Converts)
    (credential other : CredentialsPvt Variant) :
    RoundTrips vu credential other ↔ credential.token = vu.invalid := by
  rw [RoundTrips, setBody_toVariant converts]
  constructor
  · intro agrees
    exact agrees.token.symm
  · intro noToken
    refine ⟨rfl, rfl, rfl, rfl, rfl, noToken.symm, ?_⟩
    rw [CredentialsPvt.isValid, CredentialsPvt.isValid, noToken]

/-- A credential survives the round trip exactly if the last token that was set, alone or
with a body, is no token. -/
theorem roundTrips_iff (converts : vu.Converts) (calls : List (CredentialCall Variant))
    (other : CredentialsPvt Variant) :
    RoundTrips vu ((new vu).run vu calls) other ↔
      (lastWritten (tokenSet vu) calls).getD vu.invalid = vu.invalid := by
  rw [roundTrips_iff_token converts, token_run]
  rfl

end RoundTrip

/-- The conversions between the variants of the settings. -/
def VariantUtil.settings : VariantUtil QVariant where
  invalid := .invalid
  ofUuid := .uuid
  ofHash := .hash
  isValid
    | .invalid => false
    | _ => true
  isNull
    | .invalid => true
    | _ => false
  toUuid
    | .uuid uuid => uuid
    | _ => .null
  toHash := QVariant.toHash

theorem converts_settings : VariantUtil.settings.Converts := ⟨fun _ => rfl, fun _ => rfl⟩

/-- A credential with a profile and a session survives the round trip. -/
theorem roundTrips_profile :
    RoundTrips .settings
      ((CredentialsPvt.new .settings).run .settings
        [.setToken (.bool true), .setProfile (.longLong 1), .setBody [], .setSession (.bool true)])
      (.new .settings) :=
  (roundTrips_iff converts_settings _ _).mpr rfl

/-- A credential with a token loses it. -/
theorem not_roundTrips_token :
    ¬RoundTrips .settings
      ((CredentialsPvt.new .settings).run .settings
        [.setToken (.byteArray "secret".toList)]) (.new .settings) := by
  intro agrees
  cases agrees.token

end QApr.Sessions
