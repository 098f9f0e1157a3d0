/-
  ModJanus.Api.Auth

  `authSignToken` of auth.c: the signed token
  `<expiry>,janus[,desc...]:<base64(HMAC-SHA1(data, secret))>`, and the reading of
  such a token that auth.h documents.

  HMAC-SHA1 and the base64 of its result come from OpenSSL; they are one parameter
  here (`Hmac`), of which no more is used than the alphabet of base64.  A C string is
  a `String` with one `Char` for a byte.
-/
import Mathlib.Data.List.TakeWhile
import ModJanus.Basic

namespace ModJanus

/-! ## Texts -/

/-- `snprintf` into a buffer of that size: what does not fit is cut off. -/
def snprintf (size : Nat) (text : String) : String := String.ofList (text.toList.take (size - 1))

theorem snprintf_of_lt {size : Nat} {text : String} (h : text.length < size) :
    snprintf size text = text := by
  have hlen : text.toList.length ≤ size - 1 := by
    rw [String.length_toList]
    omega
  rw [snprintf, List.take_of_length_le hlen, String.ofList_toList]

/-- The decimal form of a number holds digits only. -/
theorem isDigit_of_mem_toString {n : Nat} {c : Char} (h : c ∈ (toString n).toList) :
    c.isDigit = true := by
  rw [Nat.toString_eq_repr, Nat.repr, String.toList_ofList] at h
  exact Nat.isDigit_of_mem_toDigits (by decide) (by decide) h

/-! ## Signing -/

/-- `AUTH_REALM`. -/
def AUTH_REALM : String := "janus"

/-- The characters of standard base64. -/
def isBase64 (c : Char) : Bool := c.isAlphanum || c == '+' || c == '/' || c == '='

/-- `HMAC` with `EVP_sha1` followed by `EVP_EncodeBlock`, for a key and a text; `none`
    when OpenSSL reports an error. -/
structure Hmac where
  sign : String → String → Option String
  alphabet : ∀ key data code, sign key data = some code → ∀ c ∈ code.toList, isBase64 c = true

/-- The data part of a token.  Its buffer is allocated for what is written into it. -/
def tokenData (expiry : Nat) (ppDescriptors : List String) : String :=
  (ppDescriptors.filter (· ≠ "")).foldl (fun pData desc => pData ++ "," ++ desc)
    (toString expiry ++ "," ++ AUTH_REALM)

/-- `authSignToken`, at the time `now` in seconds. -/
def authSignToken (hmac : Hmac) (now : Nat) (pSecret : String) (ttlSeconds : Int)
    (ppDescriptors : List String) : Option String :=
  if pSecret = "" ∨ ttlSeconds ≤ 0 then none
  else
    let pData := tokenData (now + ttlSeconds.toNat) ppDescriptors
    (hmac.sign pSecret pData).map fun pB64 => pData ++ ":" ++ pB64

/-! ## Reading -/

/-- The data of a token: everything before the first `:`. -/
def tokenDataOf (token : String) : String := String.ofList (token.toList.takeWhile (· ≠ ':'))

/-- The signature of a token: everything behind the first `:`. -/
def tokenSignatureOf (token : String) : String :=
  String.ofList ((token.toList.dropWhile (· ≠ ':')).drop 1)

/-- The descriptors in the data of a token, behind the expiry and the realm. -/
def tokenDescriptors (data : String) : List String :=
  ((data.toList.splitOn ',').drop 2).map String.ofList

/-- A token signed with that secret: some data with its signature. -/
def SignedWith (hmac : Hmac) (pSecret token : String) : Prop :=
  ∃ data code, hmac.sign pSecret data = some code ∧ token = data ++ ":" ++ code

/-- A token that was signed: its data, of some expiry, and the signature of that data. -/
theorem authSignToken_parts {hmac : Hmac} {now : Nat} {pSecret : String} {ttlSeconds : Int}
    {ppDescriptors : List String} {token : String}
    (h : authSignToken hmac now pSecret ttlSeconds ppDescriptors = some token) :
    ∃ expiry code, hmac.sign pSecret (tokenData expiry ppDescriptors) = some code ∧
      token = tokenData expiry ppDescriptors ++ ":" ++ code := by
  unfold authSignToken at h
  split at h
  · cases h
  · obtain ⟨code, hcode, rfl⟩ := Option.map_eq_some_iff.mp h
    exact ⟨_, code, hcode, rfl⟩

theorem authSignToken_signedWith {hmac : Hmac} {now : Nat} {pSecret : String} {ttlSeconds : Int}
    {ppDescriptors : List String} {token : String}
    (h : authSignToken hmac now pSecret ttlSeconds ppDescriptors = some token) :
    SignedWith hmac pSecret token := by
  obtain ⟨expiry, code, hcode, htoken⟩ := authSignToken_parts h
  exact ⟨_, code, hcode, htoken⟩

end ModJanus
