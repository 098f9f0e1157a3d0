/-
  ModJanus.Api.PollQuery

  The query of the long poll, read back as a form.

  `apiPoll` writes the secret and the token into its URL as they are, with three calls of
  `snprintf` that cut off what the buffer does not hold.  `poll_faithful_iff` says for
  which configurations the receiver reads the parameters that were written, and nothing is
  cut off.
-/
import ModJanus.Api.Credentials

namespace ModJanus

/-! ## Reading the query -/

/-- The parameters of a query: split at `&` and at the first `=`, and decoded with `+` as a
    blank. -/
def decodeQuery (query : List Char) : List (List Char × List Char) :=
  (Fields.pairs '&' '=' query).map (Prod.map (percentDecode true) (percentDecode true))

/-- The name of the first parameter, and its value `MAX_POLL_EVENTS`. -/
def maxevName : List Char := ['m', 'a', 'x', 'e', 'v']

def maxevValue : List Char := ['1', '0']

/-- The parameters of the poll with that token. -/
def pollParams (server : ServerConfig) (pAuthToken : Option String) :
    List (List Char × List Char) :=
  (maxevName, maxevValue) :: pollFields server pAuthToken

/-- The buffer holds the URL. -/
def UrlFits (server : ServerConfig) (serverId : JanusId) (pAuthToken : Option String) : Prop :=
  (pollPath server serverId).length + 1 + (pollQuery server pAuthToken).length < URL_SIZE

/-- What is sent is read as the parameters, and a URL that does not fit is not sent. -/
def PollFaithful (hmac : Hmac) (now : Nat) (server : ServerConfig) (serverId : JanusId)
    (pAuthToken : Option String) : Prop :=
  (∀ url, apiPoll hmac now server serverId = some (.get url) →
    decodeQuery (queryOf url.toList) = pollParams server pAuthToken) ∧
  (¬ UrlFits server serverId pAuthToken → apiPoll hmac now server serverId = none)

/-- Some `%` stands in front of two hexadecimal digits. -/
def hasEscape : List Char → Bool
  | [] => false
  | '%' :: a :: b :: rest =>
      ((hexDigit? a).isSome && (hexDigit? b).isSome) || hasEscape (a :: b :: rest)
  | _ :: rest => hasEscape rest

/-- A value that a query can hold as it is. -/
def PlainValue (value : List Char) : Prop :=
  '&' ∉ value ∧ '#' ∉ value ∧ '+' ∉ value ∧ hasEscape value = false

theorem percentDecode_eq_self_iff {value : List Char} :
    percentDecode true value = value ↔ '+' ∉ value ∧ hasEscape value = false := by
  fun_induction percentDecode true value with
  | case1 => simp [hasEscape]
  | case2 a b rest x y hx hy ih =>
      -- an escape becomes one character
      have hlen := percentDecode_length_le true rest
      constructor
      · intro h
        have heq := congrArg List.length h
        simp only [List.length_cons] at heq
        omega
      · rintro ⟨-, hnone⟩
        simp [hasEscape, hx, hy] at hnone
  | case3 a b rest h ih =>
      have hnot : ((hexDigit? a).isSome && (hexDigit? b).isSome) = false := by
        cases ha : hexDigit? a with
        | none => rfl
        | some x =>
            cases hb : hexDigit? b with
            | none => rfl
            | some y => exact absurd hb (h x y ha)
      rw [List.cons.injEq, hasEscape, hnot, Bool.false_or, List.mem_cons, ih]
      simp
  | case4 c rest h ih =>
      have hskip : hasEscape (c :: rest) = hasEscape rest := hasEscape.eq_3 c rest h
      rw [hskip, List.mem_cons, List.cons.injEq, ih]
      by_cases hplus : c = '+'
      · simp [hplus]
      · simp [hplus, Ne.symm hplus]

/-! ## An address without query and fragment -/

/-- No parameter of the poll is empty. -/
theorem pollFields_ne_nil {hmac : Hmac} {now : Nat} {server : ServerConfig}
    {pAuthToken : Option String} (htoken : pollToken hmac now server = some pAuthToken)
    {field : List Char × List Char} (hf : field ∈ pollFields server pAuthToken) :
    field.2 ≠ [] := by
  have hne : ∀ s : String, s ≠ "" → s.toList ≠ [] :=
    fun s hs hnil => hs (String.toList_eq_nil_iff.mp hnil)
  rcases pollFields_name hf with ⟨-, secret, -, hvalue⟩ | ⟨-, token, ht, hvalue⟩
  · rw [hvalue]
    exact hne _ secret.2
  · rw [hvalue]
    rcases pollToken_cases htoken with ⟨-, rfl⟩ | ⟨key, expiry, code, -, -, rfl⟩
    · obtain ⟨stored, -, rfl⟩ := Option.map_eq_some_iff.mp ht
      exact hne _ stored.2
    · cases ht
      simp

theorem pollParams_no_sign {server : ServerConfig} {pAuthToken : Option String}
    {field : List Char × List Char} (hf : field ∈ pollParams server pAuthToken) :
    ('&' ∉ field.1 ∧ '=' ∉ field.1) ∧ '#' ∉ field.1 ∧
      percentDecode true field.1 = field.1 := by
  rcases List.mem_cons.mp hf with rfl | hf
  · decide
  · rcases pollFields_name hf with ⟨hname, -⟩ | ⟨hname, -⟩ <;> rw [hname] <;> decide

/-- Of a plain address the parameters are read as they were written exactly when each value
    is a plain one. -/
theorem plain_decode_iff {hmac : Hmac} {now : Nat} {server : ServerConfig} {serverId : JanusId}
    {pAuthToken : Option String} (hplain : PlainAddress server)
    (htoken : pollToken hmac now server = some pAuthToken)
    (hfits : UrlFits server serverId pAuthToken) :
    decodeQuery (queryOf (pollUrl server serverId pAuthToken).toList) =
        pollParams server pAuthToken ↔
      ∀ field ∈ pollFields server pAuthToken, PlainValue field.2 := by
  have hmaxev : maxevParam = maxevName ++ '=' :: maxevValue := rfl
  constructor
  · intro hread field hf
    have hpre := sentQuery_cut hplain serverId pAuthToken
    have hvalues : ∀ field ∈ pollParams server pAuthToken, field.2 ≠ [] := by
      intro field hf
      rcases List.mem_cons.mp hf with rfl | hf
      · decide
      · exact pollFields_ne_nil htoken hf
    obtain ⟨hwhole, hall⟩ := Fields.pairs_complete (percentDecode_length_le true)
      (fun field hf => (pollParams_no_sign hf).1.2) hvalues hpre hread
    have hhash := ((sentQuery_eq_iff hplain serverId pAuthToken).mp hwhole).2
    obtain ⟨hsep, hdecode⟩ := hall field (List.mem_cons_of_mem _ hf)
    obtain ⟨hplus, hescape⟩ := percentDecode_eq_self_iff.mp hdecode
    exact ⟨hsep, hash_not_mem_pollQuery.mp hhash field hf, hplus, hescape⟩
  · intro h
    have hhash : '#' ∉ pollQuery server pAuthToken :=
      hash_not_mem_pollQuery.mpr fun field hf => (h field hf).2.1
    have hdecode : ∀ field ∈ pollParams server pAuthToken,
        '&' ∉ field.2 ∧ percentDecode true field.2 = field.2 := by
      intro field hf
      rcases List.mem_cons.mp hf with rfl | hf
      · decide
      · exact ⟨(h field hf).1, percentDecode_eq_self_iff.mpr (h field hf).2.2⟩
    have hpairs := Fields.pairs_render (by decide : '&' ≠ '=')
      (fun field hf => (pollParams_no_sign hf).1) (fun field hf => (hdecode field hf).1)
    rw [(sentQuery_eq_iff hplain serverId pAuthToken).mpr ⟨hfits, hhash⟩, decodeQuery, pollQuery,
      hmaxev, hpairs]
    -- nothing is changed by the decoding
    refine (List.map_congr_left fun field hf => ?_).trans (List.map_id _)
    exact Prod.ext (pollParams_no_sign hf).2.2 (hdecode field hf).2

/-! ## Other addresses -/

/-- A URL that fits is not cut. -/
theorem pollUrl_whole {server : ServerConfig} {serverId : JanusId} {pAuthToken : Option String}
    (hfits : UrlFits server serverId pAuthToken) :
    (pollUrl server serverId pAuthToken).toList =
      pollPath server serverId ++ '?' :: pollQuery server pAuthToken := by
  rw [pollUrl_toList, List.take_of_length_le]
  unfold UrlFits at hfits
  rw [List.length_append, List.length_cons]
  omega

/-- Behind a fragment nothing is read. -/
theorem queryOf_fragment {front : List Char} (h : '#' ∈ front) (rest : List Char) :
    queryOf (front ++ rest) = queryOf front := by
  obtain ⟨before, after, rfl, hbefore⟩ := List.eq_append_cons_of_mem h
  have hkeep : ∀ c ∈ before, decide (c ≠ '#') = true := by
    intro c hc
    rw [decide_eq_true_eq]
    rintro rfl
    exact hbefore hc
  have htake : ∀ rest, (before ++ '#' :: rest).takeWhile (· ≠ '#') = before := by
    intro rest
    rw [List.takeWhile_append_of_pos hkeep]
    simp
  rw [queryOf, queryOf, List.append_assoc, List.cons_append, htake, htake]

theorem mem_percentDecode_question {value : List Char} (h : '?' ∈ value) :
    '?' ∈ percentDecode true value := by
  fun_induction percentDecode true value with
  | case1 => exact h
  | case2 a b rest x y hy hx ih =>
      have ha : '?' ≠ a := by
        rintro rfl
        cases hx
      have hb : '?' ≠ b := by
        rintro rfl
        cases hy
      exact List.mem_cons_of_mem _ (ih (by simpa [ha, hb] using h))
  | case3 a b rest h' ih => exact List.mem_cons_of_mem _ (ih (by simpa using h))
  | case4 c rest h' ih =>
      rcases List.mem_cons.mp h with rfl | h
      · exact List.mem_cons_self
      · exact List.mem_cons_of_mem _ (ih h)

theorem decodeQuery_append (front rest : List Char) :
    decodeQuery (front ++ '&' :: rest) = decodeQuery front ++ decodeQuery rest := by
  rw [decodeQuery, Fields.pairs_append_cons, List.map_append]
  rfl

/-- A question mark in a query is in one of its parameters, decoded or not. -/
theorem decodeQuery_question {query : List Char} (h : '?' ∈ query) :
    decodeQuery query ≠ [(maxevName, maxevValue)] := by
  intro heq
  obtain ⟨field, hf, hmem⟩ := Fields.exists_pair_of_mem h (by decide : '?' ≠ '&')
    (by decide : '?' ≠ '=')
  have hdecoded : Prod.map (percentDecode true) (percentDecode true) field ∈ decodeQuery query :=
    List.mem_map_of_mem hf
  rw [heq, List.mem_singleton] at hdecoded
  obtain ⟨hname, hvalue⟩ := Prod.mk.inj hdecoded
  rcases hmem with hmem | hmem
  · exact absurd (hname ▸ mem_percentDecode_question hmem) (by decide)
  · exact absurd (hvalue ▸ mem_percentDecode_question hmem) (by decide)

/-- What comes behind the first question mark is read up to a fragment. -/
theorem queryOf_question {before text : List Char} (hquestion : '?' ∉ before)
    (hhash : '#' ∉ before ++ '?' :: text) (rest : List Char) :
    queryOf ((before ++ '?' :: text) ++ rest) = text ++ rest.takeWhile (· ≠ '#') := by
  have hkeep : ∀ c ∈ before ++ '?' :: text, decide (c ≠ '#') = true := by
    intro c hc
    rw [decide_eq_true_eq]
    rintro rfl
    exact hhash hc
  have hskip : ∀ c ∈ before, decide (c ≠ '?') = true := by
    intro c hc
    rw [decide_eq_true_eq]
    rintro rfl
    exact hquestion hc
  rw [queryOf, List.takeWhile_append_of_pos hkeep, List.append_assoc,
    List.dropWhile_append_of_pos hskip]
  rfl

/-- The parameter that stands behind a query is read under its name, wherever the query is
    cut off. -/
theorem decodeQuery_behind {name : List Char} (hsep : '&' ∉ name) (heq : '=' ∉ name)
    (hdecode : percentDecode true name = name) (query text : List Char) :
    ∃ value others, decodeQuery (query ++ '&' :: (name ++ '=' :: text)) =
      decodeQuery query ++ (name, value) :: others := by
  obtain ⟨value, others, hpairs⟩ := Fields.pairs_head (by decide : '&' ≠ '=') hsep heq text
  refine ⟨percentDecode true value,
    others.map (Prod.map (percentDecode true) (percentDecode true)), ?_⟩
  rw [decodeQuery_append]
  congr 1
  rw [decodeQuery, hpairs, List.map_cons, Prod.map_apply, hdecode]

/-- A query with a question mark in it takes the place of the first parameter. -/
theorem question_not_maxev {query : List Char} {fields : List (List Char × List Char)}
    (hquery : '?' ∈ query) (hnodup : (fields.map Prod.fst).Nodup)
    (hnames : ∀ field ∈ fields, ('&' ∉ field.1 ∧ '=' ∉ field.1) ∧ '#' ∉ field.1 ∧
      percentDecode true field.1 = field.1) :
    decodeQuery (query ++ (Fields.render '&' '=' fields).takeWhile (· ≠ '#')) ≠
      (maxevName, maxevValue) :: fields := by
  intro hread
  cases fields with
  | nil =>
      rw [Fields.render, List.takeWhile_nil, List.append_nil] at hread
      exact decodeQuery_question hquery hread
  | cons field rest =>
      obtain ⟨name, value⟩ := field
      obtain ⟨⟨hsep, heq⟩, hhash, hdecode⟩ := hnames _ List.mem_cons_self
      -- the name of the next parameter is not cut
      obtain ⟨text, htext⟩ : ∃ text, (Fields.render '&' '=' ((name, value) :: rest)).takeWhile
          (· ≠ '#') = '&' :: (name ++ '=' :: text) := by
        have hkeep : ∀ c ∈ '&' :: (name ++ ['=']), decide (c ≠ '#') = true := by
          intro c hc
          rw [decide_eq_true_eq]
          rintro rfl
          simp [hhash] at hc
        have hshape : Fields.render '&' '=' ((name, value) :: rest) =
            ('&' :: (name ++ ['='])) ++ (value ++ Fields.render '&' '=' rest) := by
          simp [Fields.render]
        rw [hshape, List.takeWhile_append_of_pos hkeep]
        exact ⟨(value ++ Fields.render '&' '=' rest).takeWhile (· ≠ '#'), by simp⟩
      obtain ⟨read, others, hbehind⟩ := decodeQuery_behind hsep heq hdecode query text
      rw [htext, hbehind] at hread
      cases hfirst : decodeQuery query with
      | nil =>
          rw [decodeQuery, List.map_eq_nil_iff] at hfirst
          exact Fields.pairs_ne_nil '&' '=' query hfirst
      | cons first more =>
          rw [hfirst, List.cons_append, List.cons.injEq] at hread
          obtain ⟨rfl, hread⟩ := hread
          cases more with
          | nil => exact decodeQuery_question hquery hfirst
          | cons second more =>
              -- the name would be there twice
              rw [List.cons_append, List.cons.injEq] at hread
              have hmem : (name, read) ∈ rest := hread.2 ▸ by simp
              have hname : name ∈ rest.map Prod.fst := List.mem_map.mpr ⟨_, hmem, rfl⟩
              exact (List.nodup_cons.mp hnodup).1 hname

/-- Of an address with a query of its own, the first parameter is never read as `maxev`. -/
theorem query_not_read {server : ServerConfig} {serverId : JanusId} {pAuthToken : Option String}
    (hfits : UrlFits server serverId pAuthToken) (hquery : '?' ∈ server.pUrl.toList)
    (hfragment : '#' ∉ server.pUrl.toList) :
    decodeQuery (queryOf (pollUrl server serverId pAuthToken).toList) ≠
      pollParams server pAuthToken := by
  intro hread
  obtain ⟨before, after, hurl, hbefore⟩ := List.eq_append_cons_of_mem hquery
  have hpath : '#' ∉ pollPath server serverId := by
    intro hmem
    rcases List.mem_append.mp hmem with hmem | hmem
    · exact hfragment hmem
    · rcases List.mem_cons.mp hmem with heq | hmem
      · cases heq
      · exact absurd (isDigit_of_mem_toString hmem) (by decide)
  -- the query begins with what stands behind the first question mark, up to `maxev=10`
  obtain ⟨query, hmem, hhash, hsplit⟩ : ∃ query, '?' ∈ query ∧
      '#' ∉ before ++ '?' :: query ∧ (pollUrl server serverId pAuthToken).toList =
        (before ++ '?' :: query) ++ Fields.render '&' '=' (pollFields server pAuthToken) := by
    refine ⟨after ++ '/' :: ((decimal serverId).toList ++ '?' :: maxevParam), by simp, ?_, ?_⟩
    · have hmaxev : '#' ∉ maxevParam := by decide
      rw [pollPath, hurl] at hpath
      simp only [List.mem_append, List.mem_cons, not_or] at hpath ⊢
      exact ⟨hpath.1.1, hpath.1.2.1, hpath.1.2.2, hpath.2.1, hpath.2.2, by decide, hmaxev⟩
    · rw [pollUrl_whole hfits, pollPath, hurl, pollQuery]
      simp
  rw [hsplit, queryOf_question hbefore hhash] at hread
  exact question_not_maxev hmem (pollFields_names server pAuthToken).nodup
    (fun field hf => pollParams_no_sign (List.mem_cons_of_mem _ hf)) hread

/-! ## The long poll -/

/-- The parameters of the poll are read as they were written if and only if the buffer holds
    the URL and either the address is plain and so is each value, or the address ends in a
    fragment and has these parameters in front of it. -/
theorem poll_faithful_iff (hmac : Hmac) (now : Nat) (server : ServerConfig) (serverId : JanusId)
    (pAuthToken : Option String) (htransport : server.transport = .http)
    (htoken : pollToken hmac now server = some pAuthToken) :
    PollFaithful hmac now server serverId pAuthToken ↔
      UrlFits server serverId pAuthToken ∧
        ((PlainAddress server ∧ ∀ field ∈ pollFields server pAuthToken, PlainValue field.2) ∨
          ('#' ∈ server.pUrl.toList ∧
            decodeQuery (queryOf server.pUrl.toList) = pollParams server pAuthToken)) := by
  have hsent : apiPoll hmac now server serverId =
      some (.get (pollUrl server serverId pAuthToken)) := by
    rw [apiPoll, htransport]
    simp only [htoken, Option.map_some]
  have hfaithful : PollFaithful hmac now server serverId pAuthToken ↔
      UrlFits server serverId pAuthToken ∧
        decodeQuery (queryOf (pollUrl server serverId pAuthToken).toList) =
          pollParams server pAuthToken := by
    constructor
    · rintro ⟨hread, hcut⟩
      refine ⟨?_, hread _ hsent⟩
      -- what is sent would otherwise be cut off
      by_contra hfits
      rw [hcut hfits] at hsent
      cases hsent
    · rintro ⟨hfits, hread⟩
      refine ⟨fun url hurl => ?_, fun hcut => absurd hfits hcut⟩
      rw [hsent] at hurl
      cases hurl
      exact hread
  rw [hfaithful]
  refine and_congr_right fun hfits => ?_
  by_cases hfragment : '#' ∈ server.pUrl.toList
  · have hnot : ¬ PlainAddress server := fun hplain => hplain.2 hfragment
    rw [pollUrl_whole hfits, pollPath, List.append_assoc, queryOf_fragment hfragment]
    simp [hnot, hfragment]
  · by_cases hquery : '?' ∈ server.pUrl.toList
    · have hnot : ¬ PlainAddress server := fun hplain => hplain.1 hquery
      simp [hnot, hfragment, query_not_read hfits hquery hfragment]
    · have hplain : PlainAddress server := ⟨hquery, hfragment⟩
      rw [plain_decode_iff hplain htoken hfits]
      simp [hplain, hfragment]

theorem poll_faithful_stored :
    PollFaithful noHmac 0 (tokenServer "http://a/janus" .http) 7 (some "stored") := by
  refine (poll_faithful_iff noHmac 0 (tokenServer "http://a/janus" .http) 7 (some "stored") rfl
    rfl).mpr ⟨?_, .inl ⟨⟨by decide, by decide⟩, ?_⟩⟩
  · unfold UrlFits
    decide
  · unfold PlainValue
    decide

/-- The secret `a&b` is read as `a`, with a parameter `b` behind it. -/
theorem poll_secret_split :
    ¬ ∀ (hmac : Hmac) (now : Nat) (server : ServerConfig) (serverId : JanusId)
      (pAuthToken : Option String), server.transport = .http →
      pollToken hmac now server = some pAuthToken →
      PollFaithful hmac now server serverId pAuthToken := by
  intro h
  obtain ⟨hread, -⟩ := h noHmac 0
    { pUrl := "http://a/janus", transport := .http, pSecret := some ⟨"a&b", by decide⟩,
      pAuthToken := none, pHmacSecret := none } 7 none rfl rfl
  exact absurd (hread _ rfl) (by decide)

end ModJanus
