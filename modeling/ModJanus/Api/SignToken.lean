/-
  ModJanus.Api.SignToken

  `authSignToken` of auth.c with its buffers.

  The first loop adds up the size of the data, the second writes it with `snprintf`, and a
  third buffer is sized from what was written.  `snprintf` returns an `int`: a text that is
  longer than `INT_MAX` is an error, which the code checks for each of its calls.

  Allocations succeed.  A null array of descriptors is one of null entries.
-/
import Mathlib.Data.Nat.Digits.Defs
import ModJanus.Api.Auth

namespace ModJanus.Auth

/-! ## Buffers -/

def INT_MAX : Nat := 2147483647

/-- The range of `size_t`. -/
def SIZE_RANGE : Nat := 18446744073709551616

/-- What `snprintf` returns for a text: its length, if that is an `int`. -/
def snprintfReturn (text : String) : Int := if text.length ≤ INT_MAX then text.length else -1

/-- `pData`, filled up to `dataLen`. -/
structure Data where
  pData : String
  dataLen : Nat
  deriving DecidableEq, Repr

/-- `snprintf(pData + dataLen, dataCap - dataLen, ...)` and the test of its result. -/
def Data.write (dataCap : Nat) (data : Data) (text : String) : Option Data :=
  let written := snprintfReturn text
  if written < 0 ∨ dataCap - data.dataLen ≤ written.toNat then none
  else
    some
      { pData := String.ofList (data.pData.toList.take data.dataLen) ++
          snprintf (dataCap - data.dataLen) text
        dataLen := data.dataLen + written.toNat }

/-! ## Signing -/

/-- What is used of OpenSSL.  `HMAC` gets the key with its length as an `int` and the data;
    it returns the signature.  `EVP_EncodeBlock` writes base64 without line breaks, four
    characters for each three bytes. -/
structure OpenSsl where
  HMAC : String → Int → String → Option (List UInt8)
  EVP_EncodeBlock : List UInt8 → String
  encodeBlock_length : ∀ sig, (EVP_EncodeBlock sig).length = 4 * ((sig.length + 2) / 3)

/-- The cast `(int) strlen(text)`. -/
def intStrlen (text : String) : Int := (BitVec.ofNat 32 text.length).toInt

/-- One round of the first loop. -/
def reserve (dataCap : Nat) : Option String → Nat
  | some desc => (dataCap + (1 + desc.length)) % SIZE_RANGE
  | none => dataCap

/-- The size that the first loop computes. -/
def dataCap (ppDescriptors : List (Option String)) : Nat :=
  (ppDescriptors.foldl reserve (21 + 1 + AUTH_REALM.length) + 1) % SIZE_RANGE

/-- One round of the second loop. -/
def writeDescriptor (dataCap : Nat) (data : Data) : Option String → Option Data
  | none => some data
  | some desc => if desc = "" then some data else data.write dataCap ("," ++ desc)

/-- The last `snprintf`, into a buffer sized for the data, a `:`, the signature and the
    NUL. -/
def writeToken (data : Data) (pB64 : String) : Option String :=
  let total := (data.dataLen + 1 + pB64.length + 1) % SIZE_RANGE
  let token := data.pData ++ ":" ++ pB64
  let written := snprintfReturn token
  if written < 0 ∨ total ≤ written.toNat then none else some (snprintf total token)

/-- `authSignToken`, at the time `now` in seconds. -/
def authSignToken (ssl : OpenSsl) (now : Int) (pSecret : Option String) (ttlSeconds : Int)
    (ppDescriptors : List (Option String)) : Option String :=
  match pSecret with
  | none => none
  | some pSecret =>
      if pSecret = "" ∨ ttlSeconds ≤ 0 then none
      else do
        let cap := dataCap ppDescriptors
        let expiry := now + ttlSeconds
        let data ← Data.write cap ⟨"", 0⟩ (toString expiry ++ "," ++ AUTH_REALM)
        let data ← ppDescriptors.foldlM (writeDescriptor cap) data
        let sig ← ssl.HMAC pSecret (intStrlen pSecret) data.pData
        if sig.length = 0 then none
        else
          let pB64 := ssl.EVP_EncodeBlock sig
          if pB64.length = 0 then none else writeToken data pB64

/-! ## The token that is meant -/

/-- The descriptors that are neither null nor empty. -/
def saidDescriptors (ppDescriptors : List (Option String)) : List String :=
  (ppDescriptors.filterMap id).filter (· ≠ "")

/-- A text, and a comma and a descriptor for each. -/
def withDescriptors (text : String) (descriptors : List String) : String :=
  descriptors.foldl (fun pData desc => pData ++ "," ++ desc) text

/-- `<expiry>,janus[,desc1,desc2...]`. -/
def signedData (expiry : Int) (ppDescriptors : List (Option String)) : String :=
  withDescriptors (toString expiry ++ "," ++ AUTH_REALM) (saidDescriptors ppDescriptors)

/-! ## One write -/

/-- The data after writes that all fitted. -/
def Data.of (text : String) : Data := ⟨text, text.length⟩

theorem snprintfReturn_of_le {text : String} (h : text.length ≤ INT_MAX) :
    snprintfReturn text = text.length := if_pos h

theorem snprintfReturn_neg {text : String} (h : ¬ text.length ≤ INT_MAX) :
    snprintfReturn text < 0 := by
  rw [snprintfReturn, if_neg h]
  decide

/-- A write that fits appends its text, and any other fails. -/
theorem write_of (cap : Nat) (text piece : String) :
    (Data.of text).write cap piece =
      if piece.length ≤ INT_MAX ∧ text.length + piece.length < cap then
        some (Data.of (text ++ piece))
      else none := by
  rw [Data.write, Data.of]
  dsimp only
  by_cases hint : piece.length ≤ INT_MAX
  · rw [snprintfReturn_of_le hint, Int.toNat_natCast]
    by_cases hfits : text.length + piece.length < cap
    · rw [if_neg (by omega), if_pos ⟨hint, hfits⟩, snprintf_of_lt (by omega)]
      have htake : text.toList.take text.length = text.toList := by
        rw [← String.length_toList, List.take_length]
      simp [Data.of, htake]
    · rw [if_pos (by omega), if_neg (fun h => hfits h.2)]
  · rw [if_pos (.inl (snprintfReturn_neg hint)), if_neg (fun h => hint h.1)]

/-! ## The two loops -/

/-- What the first loop reserves for the descriptors. -/
def reserved (ppDescriptors : List (Option String)) : Nat :=
  ((ppDescriptors.filterMap id).map fun desc => 1 + desc.length).sum

theorem saidDescriptors_none (ds : List (Option String)) :
    saidDescriptors (none :: ds) = saidDescriptors ds := rfl

theorem saidDescriptors_some (desc : String) (ds : List (Option String)) :
    saidDescriptors (some desc :: ds) =
      if desc = "" then saidDescriptors ds else desc :: saidDescriptors ds := by
  simp [saidDescriptors, List.filter_cons]

theorem reserved_none (ds : List (Option String)) : reserved (none :: ds) = reserved ds := rfl

theorem reserved_some (desc : String) (ds : List (Option String)) :
    reserved (some desc :: ds) = 1 + desc.length + reserved ds := rfl

/-- The first loop adds without wrapping around as long as the sum is a `size_t`. -/
theorem foldl_reserve (ds : List (Option String)) (cap : Nat)
    (h : cap + reserved ds < SIZE_RANGE) : ds.foldl reserve cap = cap + reserved ds := by
  induction ds generalizing cap with
  | nil => rfl
  | cons d ds ih =>
      rw [List.foldl_cons]
      cases d with
      | none =>
          rw [reserved_none] at h ⊢
          exact ih cap h
      | some desc =>
          rw [reserved_some] at h ⊢
          rw [reserve, Nat.mod_eq_of_lt (by omega), ih _ (by omega)]
          omega

/-- The text that is written is no longer than what is reserved, and shorter only by the
    commas of empty descriptors. -/
theorem withDescriptors_length (ds : List (Option String)) (text : String) :
    (withDescriptors text (saidDescriptors ds)).length ≤ text.length + reserved ds ∧
      text.length + reserved ds ≤
        (withDescriptors text (saidDescriptors ds)).length + ds.length := by
  induction ds generalizing text with
  | nil => exact ⟨Nat.le_refl _, Nat.le_refl _⟩
  | cons d ds ih =>
      cases d with
      | none =>
          obtain ⟨hle, hge⟩ := ih text
          rw [saidDescriptors_none, reserved_none, List.length_cons]
          exact ⟨hle, by omega⟩
      | some desc =>
          rw [saidDescriptors_some, reserved_some, List.length_cons]
          by_cases hempty : desc = ""
          · -- its comma is reserved, and never written
            obtain ⟨hle, hge⟩ := ih text
            rw [if_pos hempty, hempty, String.length_empty]
            omega
          · obtain ⟨hle, hge⟩ := ih (text ++ "," ++ desc)
            have hone : ",".length = 1 := rfl
            rw [String.length_append, String.length_append, hone] at hle hge
            rw [if_neg hempty]
            show (withDescriptors (text ++ "," ++ desc) (saidDescriptors ds)).length ≤ _ ∧
              _ ≤ (withDescriptors (text ++ "," ++ desc) (saidDescriptors ds)).length + _
            omega

theorem le_withDescriptors_length (descriptors : List String) (text : String) :
    text.length ≤ (withDescriptors text descriptors).length := by
  induction descriptors generalizing text with
  | nil => exact Nat.le_refl _
  | cons desc ds ih =>
      have hle := ih (text ++ "," ++ desc)
      rw [String.length_append, String.length_append] at hle
      exact Nat.le_trans (by omega) hle

/-- When the second loop gets to its end, it has written the text. -/
theorem foldlM_write_eq_some {cap : Nat} {ds : List (Option String)} {text : String} {data : Data}
    (h : ds.foldlM (writeDescriptor cap) (Data.of text) = some data) :
    data = Data.of (withDescriptors text (saidDescriptors ds)) := by
  induction ds generalizing text with
  | nil =>
      cases h
      rfl
  | cons d ds ih =>
      rw [List.foldlM_cons] at h
      cases d with
      | none => exact ih h
      | some desc =>
          rw [saidDescriptors_some]
          rw [writeDescriptor] at h
          by_cases hempty : desc = ""
          · rw [if_pos hempty] at h ⊢
            exact ih h
          · rw [if_neg hempty, write_of, ← String.append_assoc] at h
            rw [if_neg hempty]
            split at h
            · exact ih h
            · cases h

/-- The second loop gets to its end when the whole text fits. -/
theorem foldlM_write_of_fits {cap : Nat} (ds : List (Option String)) (text : String)
    (hcap : (withDescriptors text (saidDescriptors ds)).length < cap)
    (hint : (withDescriptors text (saidDescriptors ds)).length ≤ INT_MAX) :
    ds.foldlM (writeDescriptor cap) (Data.of text) =
      some (Data.of (withDescriptors text (saidDescriptors ds))) := by
  induction ds generalizing text with
  | nil => rfl
  | cons d ds ih =>
      rw [List.foldlM_cons]
      cases d with
      | none => exact ih text hcap hint
      | some desc =>
          rw [saidDescriptors_some] at hcap hint ⊢
          rw [writeDescriptor]
          by_cases hempty : desc = ""
          · rw [if_pos hempty] at hcap hint
            rw [if_pos hempty, if_pos hempty]
            exact ih text hcap hint
          · rw [if_neg hempty] at hcap hint
            -- this write is a part of the whole text
            have hle : (text ++ "," ++ desc).length ≤
                (withDescriptors text (desc :: saidDescriptors ds)).length :=
              le_withDescriptors_length _ _
            rw [String.append_assoc, String.length_append] at hle
            rw [if_neg hempty, if_neg hempty, write_of, if_pos ⟨by omega, by omega⟩,
              ← String.append_assoc]
            exact ih _ hcap hint

/-! ## The expiry -/

/-- A number of 64 signed bits has at most 19 digits, and a sign. -/
theorem toString_length_le {n : Int} (h : -2 ^ 63 ≤ n ∧ n < 2 ^ 63) :
    (toString n).length ≤ 20 := by
  have hdigits : ∀ m : Nat, m < 10 ^ 19 → m.repr.length ≤ 19 := fun m hm =>
    Nat.repr_length m 19 (by decide) hm
  cases n with
  | ofNat m =>
      have hm : m < 10 ^ 19 := by
        simp only [Int.ofNat_eq_natCast] at h
        omega
      have hle := hdigits m hm
      show m.repr.length ≤ 20
      omega
  | negSucc m =>
      have hm : m + 1 < 10 ^ 19 := by omega
      have hle := hdigits (m + 1) hm
      have hsign : "-".length = 1 := rfl
      show ("-" ++ (m + 1).repr).length ≤ 20
      rw [String.length_append, hsign]
      omega

/-- The data fits into what the first loop computes, with its final NUL. -/
theorem signedData_lt_dataCap {expiry : Int} (hexpiry : -2 ^ 63 ≤ expiry ∧ expiry < 2 ^ 63)
    {ds : List (Option String)} (hds : ds.length ≤ INT_MAX)
    (hint : (signedData expiry ds).length ≤ INT_MAX) :
    (signedData expiry ds).length < dataCap ds := by
  obtain ⟨hle, hge⟩ := withDescriptors_length ds (toString expiry ++ "," ++ AUTH_REALM)
  have hdigits := toString_length_le hexpiry
  have hstart : (toString expiry ++ "," ++ AUTH_REALM).length = (toString expiry).length + 6 := by
    rw [String.length_append, String.length_append]
    rfl
  rw [hstart] at hle hge
  rw [signedData] at hint ⊢
  have hrealm : AUTH_REALM.length = 5 := rfl
  have hmax : INT_MAX = 2147483647 := rfl
  have hrange : SIZE_RANGE = 18446744073709551616 := rfl
  rw [dataCap, hrealm, foldl_reserve ds _ (by omega), Nat.mod_eq_of_lt (by omega)]
  omega

/-! ## The token -/

theorem intStrlen_of_le {text : String} (h : text.length ≤ INT_MAX) :
    intStrlen text = text.length := by
  have hmax : INT_MAX = 2147483647 := rfl
  rw [intStrlen, BitVec.toInt_ofNat']
  apply Int.bmod_eq_of_le <;> omega

section Token

variable (ssl : OpenSsl) {now ttlSeconds : Int} {pSecret : String} {ds : List (Option String)}
  {sig : List UInt8}

/-- `<data>:<base64(sig)>`. -/
def OpenSsl.token (data : String) (sig : List UInt8) : String :=
  data ++ ":" ++ ssl.EVP_EncodeBlock sig

theorem OpenSsl.token_length (data : String) (sig : List UInt8) :
    (ssl.token data sig).length = data.length + 1 + (ssl.EVP_EncodeBlock sig).length := by
  rw [OpenSsl.token, String.length_append, String.length_append]
  rfl

/-- Base64 of a signature is not empty. -/
theorem encodeBlock_pos (hsig : sig ≠ []) : (ssl.EVP_EncodeBlock sig).length ≠ 0 := by
  have hpos : 0 < sig.length := List.length_pos_iff.mpr hsig
  rw [ssl.encodeBlock_length]
  omega

/-- The first write is the one of the expiry and the realm, into an empty buffer. -/
theorem write_expiry (cap : Nat) (expiry : Int) :
    Data.write cap ⟨"", 0⟩ (toString expiry ++ "," ++ AUTH_REALM) =
      if (toString expiry ++ "," ++ AUTH_REALM).length ≤ INT_MAX ∧
          (toString expiry ++ "," ++ AUTH_REALM).length < cap then
        some (Data.of (toString expiry ++ "," ++ AUTH_REALM))
      else none := by
  have hwrite := write_of cap "" (toString expiry ++ "," ++ AUTH_REALM)
  rw [String.length_empty, Nat.zero_add, String.empty_append] at hwrite
  exact hwrite

/-- The third buffer is sized for the token, which is returned if its length is an
    `int`. -/
theorem writeToken_of (data : String) (sig : List UInt8) :
    writeToken (Data.of data) (ssl.EVP_EncodeBlock sig) =
      if (ssl.token data sig).length ≤ INT_MAX then some (ssl.token data sig) else none := by
  have hlen := ssl.token_length data sig
  have hmax : INT_MAX = 2147483647 := rfl
  have hrange : SIZE_RANGE = 18446744073709551616 := rfl
  have htotal : (Data.of data).dataLen + 1 + (ssl.EVP_EncodeBlock sig).length + 1 =
      (ssl.token data sig).length + 1 := by
    rw [hlen]
    rfl
  have htoken : (Data.of data).pData ++ ":" ++ ssl.EVP_EncodeBlock sig = ssl.token data sig := rfl
  simp only [writeToken, htotal, htoken]
  by_cases hint : (ssl.token data sig).length ≤ INT_MAX
  · rw [snprintfReturn_of_le hint, Int.toNat_natCast, Nat.mod_eq_of_lt (by omega),
      if_neg (by omega), if_pos hint, snprintf_of_lt (Nat.lt_succ_self _)]
  · rw [if_pos (.inl (snprintfReturn_neg hint)), if_neg hint]

/-- What follows the second loop. -/
theorem finish_of (data : String) (hsig : sig ≠ []) :
    (if sig.length = 0 then none
      else if (ssl.EVP_EncodeBlock sig).length = 0 then none
      else writeToken (Data.of data) (ssl.EVP_EncodeBlock sig)) =
      if (ssl.token data sig).length ≤ INT_MAX then some (ssl.token data sig) else none := by
  rw [if_neg (fun h => hsig (List.length_eq_zero_iff.mp h)), if_neg (encodeBlock_pos ssl hsig)]
  exact writeToken_of ssl data sig

variable (hsecret : pSecret ≠ "") (hkey : pSecret.length ≤ INT_MAX) (httl : 0 < ttlSeconds)
  (hsign : ssl.HMAC pSecret pSecret.length (signedData (now + ttlSeconds) ds) = some sig)
  (hsig : sig ≠ [])

include hsecret hkey httl hsign hsig

theorem authSignToken_of_fits (hexpiry : -2 ^ 63 ≤ now + ttlSeconds ∧ now + ttlSeconds < 2 ^ 63)
    (hds : ds.length ≤ INT_MAX)
    (hint : (ssl.token (signedData (now + ttlSeconds) ds) sig).length ≤ INT_MAX) :
    authSignToken ssl now (some pSecret) ttlSeconds ds =
      some (ssl.token (signedData (now + ttlSeconds) ds) sig) := by
  have hvalid : ¬ (pSecret = "" ∨ ttlSeconds ≤ 0) := by
    rintro (h | h)
    · exact hsecret h
    · omega
  have hlen := ssl.token_length (signedData (now + ttlSeconds) ds) sig
  have hfirst : (toString (now + ttlSeconds) ++ "," ++ AUTH_REALM).length ≤
      (signedData (now + ttlSeconds) ds).length := le_withDescriptors_length _ _
  have hdata : (signedData (now + ttlSeconds) ds).length ≤ INT_MAX := by omega
  -- no write of the data or of the token is cut off
  have hcap := signedData_lt_dataCap hexpiry hds hdata
  have hloop := foldlM_write_of_fits ds (toString (now + ttlSeconds) ++ "," ++ AUTH_REALM)
    hcap hdata
  have hfinish := finish_of ssl (signedData (now + ttlSeconds) ds) hsig
  rw [if_pos hint] at hfinish
  simp only [authSignToken]
  rw [if_neg hvalid, intStrlen_of_le hkey, write_expiry, if_pos ⟨by omega, by omega⟩]
  simp only [Option.bind_eq_bind, Option.bind_some]
  rw [hloop]
  show ((ssl.HMAC pSecret pSecret.length (signedData (now + ttlSeconds) ds)).bind
    fun sig => _) = _
  rw [hsign]
  exact hfinish

/-- If the second loop gets to its end at all, the last write fails. -/
theorem authSignToken_too_long
    (hint : ¬ (ssl.token (signedData (now + ttlSeconds) ds) sig).length ≤ INT_MAX) :
    authSignToken ssl now (some pSecret) ttlSeconds ds = none := by
  have hvalid : ¬ (pSecret = "" ∨ ttlSeconds ≤ 0) := by
    rintro (h | h)
    · exact hsecret h
    · omega
  have hfinish := finish_of ssl (signedData (now + ttlSeconds) ds) hsig
  rw [if_neg hint] at hfinish
  simp only [authSignToken]
  rw [if_neg hvalid, intStrlen_of_le hkey, write_expiry]
  split
  · simp only [Option.bind_eq_bind, Option.bind_some]
    cases hloop : ds.foldlM (writeDescriptor (dataCap ds))
        (Data.of (toString (now + ttlSeconds) ++ "," ++ AUTH_REALM)) with
    | none => rfl
    | some data =>
        cases foldlM_write_eq_some hloop
        show ((ssl.HMAC pSecret pSecret.length (signedData (now + ttlSeconds) ds)).bind
          fun sig => _) = _
        rw [hsign]
        exact hfinish
  · rfl

/-- The token is the one that is meant, and its data fits into what the first loop computes,
    as long as its length is an `int`.  Longer tokens fail. -/
theorem sign_token_exact (hexpiry : -2 ^ 63 ≤ now + ttlSeconds ∧ now + ttlSeconds < 2 ^ 63)
    (hds : ds.length ≤ INT_MAX) :
    ((ssl.token (signedData (now + ttlSeconds) ds) sig).length ≤ INT_MAX →
      (signedData (now + ttlSeconds) ds).length < dataCap ds ∧
        authSignToken ssl now (some pSecret) ttlSeconds ds =
          some (ssl.token (signedData (now + ttlSeconds) ds) sig)) ∧
    (INT_MAX < (ssl.token (signedData (now + ttlSeconds) ds) sig).length →
      authSignToken ssl now (some pSecret) ttlSeconds ds = none) := by
  refine ⟨?_, ?_⟩
  · intro hint
    have hlen := ssl.token_length (signedData (now + ttlSeconds) ds) sig
    have hcap := signedData_lt_dataCap hexpiry hds (by omega)
    exact ⟨hcap, authSignToken_of_fits ssl hsecret hkey httl hsign hsig hexpiry hds hint⟩
  · intro hlong
    exact authSignToken_too_long ssl hsecret hkey httl hsign hsig (by omega)

omit hkey httl hsign hsig hsecret in
theorem signedData_tokenData (expiry : Nat) (descriptors : List String) :
    signedData expiry (descriptors.map some) = tokenData expiry descriptors := by
  have hsaid : saidDescriptors (descriptors.map some) = descriptors.filter (· ≠ "") := by
    simp [saidDescriptors, List.filterMap_map]
  rw [signedData, hsaid]
  rfl

/-- With descriptors that are not null and a token whose length is an `int`, the buffers do
    not show. -/
theorem authSignToken_unbounded {hmac : Hmac} {time : Nat} {descriptors : List String}
    (hnow : now = time) (hds : ds = descriptors.map some)
    (hagree : hmac.sign pSecret (signedData (now + ttlSeconds) ds) = some (ssl.EVP_EncodeBlock sig))
    (hexpiry : now + ttlSeconds < 2 ^ 63) (hlen : ds.length ≤ INT_MAX)
    (hint : (ssl.token (signedData (now + ttlSeconds) ds) sig).length ≤ INT_MAX) :
    authSignToken ssl now (some pSecret) ttlSeconds ds =
      ModJanus.authSignToken hmac time pSecret ttlSeconds descriptors := by
  have hvalid : ¬ (pSecret = "" ∨ ttlSeconds ≤ 0) := by
    rintro (h | h)
    · exact hsecret h
    · omega
  have hsum : now + ttlSeconds = ((time + ttlSeconds.toNat : Nat) : Int) := by omega
  rw [authSignToken_of_fits ssl hsecret hkey httl hsign hsig ⟨by omega, hexpiry⟩ hlen hint,
    ModJanus.authSignToken, if_neg hvalid]
  rw [hsum, hds, signedData_tokenData] at hagree ⊢
  dsimp only
  rw [hagree]
  rfl

end Token

/-! ## A signature -/

/-- A digit of base64. -/
def base64Digit (n : Nat) : Char :=
  if n < 26 then Char.ofNat (65 + n)
  else if n < 52 then Char.ofNat (97 + (n - 26))
  else if n < 62 then Char.ofNat (48 + (n - 52))
  else if n = 62 then '+' else '/'

/-- Base64 of bytes, padded. -/
def base64 : List UInt8 → List Char
  | a :: b :: c :: rest =>
      base64Digit (a.toNat / 4) :: base64Digit (a.toNat % 4 * 16 + b.toNat / 16) ::
        base64Digit (b.toNat % 16 * 4 + c.toNat / 64) :: base64Digit (c.toNat % 64) :: base64 rest
  | [a, b] =>
      [base64Digit (a.toNat / 4), base64Digit (a.toNat % 4 * 16 + b.toNat / 16),
        base64Digit (b.toNat % 16 * 4), '=']
  | [a] => [base64Digit (a.toNat / 4), base64Digit (a.toNat % 4 * 16), '=', '=']
  | [] => []

theorem base64_length (bytes : List UInt8) :
    (base64 bytes).length = 4 * ((bytes.length + 2) / 3) := by
  fun_induction base64 bytes with
  | case1 a b c rest ih =>
      simp only [List.length_cons, ih]
      omega
  | case2 => simp
  | case3 => simp
  | case4 => rfl

/-- HMAC-SHA1 of a text under the key `secret`. -/
def signature : List UInt8 :=
  [116, 112, 202, 219, 136, 199, 68, 126, 57, 49, 227, 90, 32, 118, 87, 41, 94, 215, 112, 46]

/-- OpenSSL, as far as that one signature goes. -/
def oneSignature : OpenSsl where
  HMAC key keyLen data :=
    if key = "secret" ∧ keyLen = 6 ∧
        data = "1700003600,janus,janus.plugin.audiobridge,room=1234" then some signature
    else none
  EVP_EncodeBlock sig := String.ofList (base64 sig)
  encodeBlock_length sig := by rw [String.length_ofList, base64_length]

theorem sign_token_exact_room :
    authSignToken oneSignature 1700000000 (some "secret") 3600
        [some "janus.plugin.audiobridge", none, some "", some "room=1234"] =
      some "1700003600,janus,janus.plugin.audiobridge,room=1234:dHDK24jHRH45MeNaIHZXKV7XcC4=" := by
  have hsecret : "secret" ≠ "" := by decide
  have hkey : "secret".length ≤ INT_MAX := by decide
  have hsign : oneSignature.HMAC "secret" "secret".length (signedData (1700000000 + 3600)
      [some "janus.plugin.audiobridge", none, some "", some "room=1234"]) = some signature := by
    decide
  have hexact := sign_token_exact oneSignature hsecret hkey (by decide) hsign (by decide)
    (by decide) (by decide)
  exact (hexact.1 (by decide)).2

/-- A descriptor of 2 GiB. -/
def longDescriptor : String := String.ofList (List.replicate 2147483648 'a')

/-- Its `snprintf` fails. -/
theorem sign_token_exact_long :
    ¬ ∀ (ssl : OpenSsl) (now ttlSeconds : Int) (pSecret : String) (ds : List (Option String))
        (sig : List UInt8), pSecret ≠ "" → 0 < ttlSeconds →
      (-2 ^ 63 ≤ now + ttlSeconds ∧ now + ttlSeconds < 2 ^ 63) → ds.length ≤ INT_MAX →
      ssl.HMAC pSecret pSecret.length (signedData (now + ttlSeconds) ds) = some sig → sig ≠ [] →
      authSignToken ssl now (some pSecret) ttlSeconds ds =
        some (ssl.token (signedData (now + ttlSeconds) ds) sig) := by
  intro h
  let ssl : OpenSsl := { oneSignature with HMAC := fun _ _ _ => some signature }
  have hsecret : "secret" ≠ "" := by decide
  have hone : [some longDescriptor].length ≤ INT_MAX := by
    rw [List.length_singleton]
    decide
  have hsign : ssl.HMAC "secret" "secret".length
      (signedData (1700000000 + 3600) [some longDescriptor]) = some signature := rfl
  have hsig : signature ≠ [] := by decide
  have htoken := h ssl 1700000000 3600 "secret" [some longDescriptor] signature hsecret
    (by decide) (by decide) hone hsign hsig
  have hlong : INT_MAX < longDescriptor.length := by
    have hlen : longDescriptor.length = 2147483648 :=
      String.length_ofList.trans List.length_replicate
    rw [hlen]
    decide
  have hdata : longDescriptor.length ≤
      (signedData (1700000000 + 3600) [some longDescriptor]).length := by
    have hne : longDescriptor ≠ "" := by
      intro hempty
      rw [hempty] at hlong
      exact absurd hlong (by decide)
    rw [signedData, saidDescriptors_some, if_neg hne]
    show _ ≤ (_ ++ longDescriptor).length
    rw [String.length_append]
    omega
  -- the token is longer than the data
  have hnone := authSignToken_too_long ssl hsecret (by decide) (by decide) hsign hsig
    (by rw [ssl.token_length]; omega)
  rw [htoken] at hnone
  cases hnone

end ModJanus.Auth
