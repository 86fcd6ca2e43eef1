import Dander.PercentText

/-!
# OAuth 1.0a signature base strings

A request is signed by its method, its base URI and its parameters. The signature is computed from
what the HTTP library exposes of the URL; the server computes it from the request it receives, as
section 3.4.1 of RFC 5849 prescribes.
-/
namespace Dander.OAuth1

open PercentText

inductive Scheme where
  | http
  | https
  deriving DecidableEq

def Scheme.text : Scheme → List Char
  | .http => "http".toList
  | .https => "https".toList

/-- A URL of the HTTP library. `host` is the host it exposes, in lower case, without the brackets
of an IPv6 address and with international labels decoded; `rawHost` and `rawPath` are sent.
`params` are the form-decoded pairs of the query. -/
structure Url where
  scheme : Scheme
  host : List Char
  rawHost : List Char
  port : Option ℕ
  rawPath : List Char
  params : List (String × String)
  hostValid : host.map Char.toLower = host ∧ '/' ∉ host
  rawHostValid : rawHost.map Char.toLower = rawHost ∧ '/' ∉ rawHost
  pathRooted : rawPath = [] ∨ ∃ rest, rawPath = '/' :: rest
  pathAscii : rawPath.all (fun c => decide (c.toNat < 128)) = true
  pathEscaped : wellEscaped rawPath = true

/-- `url.path`: percent-decoded, and never empty. -/
def Url.path (url : Url) : List Char :=
  unquote (if url.rawPath.isEmpty then ['/'] else url.rawPath)

/-- A request without a form body. -/
structure Request where
  method : List Char
  url : Url

/-- The credentials, the nonce and the time of a signature. -/
structure Credentials where
  accountId : String
  consumerKey : String
  consumerSecret : String
  tokenId : String
  tokenSecret : String
  nonce : String
  timestamp : String

/-- A signed request: the values of its authorization header are percent-encoded. -/
structure SignedRequest where
  request : Request
  authorization : List (String × List Char)

section Signing

variable (sign : List Char → List Char → String) (credentials : Credentials) (request : Request)

def encodePair (parameter : String × String) : List Char × List Char :=
  (quote parameter.1.toList, quote parameter.2.toList)

def portText (port : ℕ) : List Char := ':' :: (toString port).toList

/-- `_base_uri` -/
def baseUri (url : Url) : List Char :=
  let scheme := url.scheme.text
  let host := url.host.map Char.toLower
  let authority :=
    match url.port with
    | none => host
    | some port =>
      if (url.scheme = .http ∧ port = 80) ∨ (url.scheme = .https ∧ port = 443) then host
      else host ++ portText port
  scheme ++ "://".toList ++ authority ++ (if url.path.isEmpty then ['/'] else url.path)

def oauthItems : List (String × String) :=
  [("oauth_consumer_key", credentials.consumerKey),
    ("oauth_nonce", credentials.nonce),
    ("oauth_signature_method", "HMAC-SHA256"),
    ("oauth_timestamp", credentials.timestamp),
    ("oauth_token", credentials.tokenId),
    ("oauth_version", "1.0")]

/-- `sorted` of pairs of texts. -/
def sortedPairs (pairs : List (List Char × List Char)) : List (List Char × List Char) :=
  pairs.insertionSort fun first second => toLex first ≤ toLex second

def pairText (pair : List Char × List Char) : List Char := pair.1 ++ '=' :: pair.2

def joined (parts : List (List Char)) : List Char := ['&'].intercalate parts

def normalizedParameters (parameters : List (String × String)) : List Char :=
  joined ((sortedPairs (parameters.map encodePair)).map pairText)

def baseString : List Char :=
  joined
    [quote (request.method.map Char.toUpper), quote (baseUri request.url),
      quote (normalizedParameters (request.url.params ++ oauthItems credentials))]

/-- Attaches the authorization header. `sign` is the base64 text of the HMAC of a text. -/
def apply : SignedRequest :=
  let signingKey := quote credentials.consumerSecret.toList ++ '&' ::
    quote credentials.tokenSecret.toList
  let signature := sign signingKey (baseString credentials request)
  let headerValues := ("realm", credentials.accountId) :: oauthItems credentials ++
    [("oauth_signature", signature)]
  { request := request
    authorization := headerValues.map fun value => (value.1, quote value.2.toList) }

end Signing

section Rfc

def defaultPort : Scheme → ℕ
  | .http => 80
  | .https => 443

/-- Section 3.4.1.2: the scheme and host in lower case, the port unless it is the default one, and
the path as it is sent. -/
def rfcBaseUri (url : Url) : List Char :=
  let port := (url.port.filter fun port => port ≠ defaultPort url.scheme).elim [] portText
  url.scheme.text ++ "://".toList ++ (url.rawHost.map Char.toLower ++ port) ++
    if url.rawPath.isEmpty then ['/'] else url.rawPath

/-- Section 3.4.1.3.1: the octets of the decoded parameters of the query and of the authorization
header, without its realm. A signature is not signed. -/
def rfcParameters (signed : SignedRequest) : List (List UInt8 × List UInt8) :=
  let query := signed.request.url.params.map fun parameter =>
    (octets parameter.1.toList, octets parameter.2.toList)
  let header := (signed.authorization.filter fun value => value.1 ≠ "realm").map fun value =>
    (octets value.1.toList, decode value.2)
  (query ++ header).filter fun parameter => parameter.1 ≠ octets "oauth_signature".toList

/-- Section 3.4.1.3.2: encoded pairs are sorted by name, and by value if they share the name. -/
def SortedPair (first second : List Char × List Char) : Prop :=
  first.1 < second.1 ∨ first.1 = second.1 ∧ first.2 ≤ second.2

/-- Section 3.4.1.1. -/
def RfcBaseString (signed : SignedRequest) (text : List Char) : Prop :=
  ∃ pairs : List (List Char × List Char),
    pairs.Perm ((rfcParameters signed).map fun parameter =>
      (encode parameter.1, encode parameter.2)) ∧
    pairs.Pairwise SortedPair ∧
    text = joined
      [quote (signed.request.method.map Char.toUpper), quote (rfcBaseUri signed.request.url),
        quote (joined (pairs.map pairText))]

end Rfc

section Joins

theorem ampersand_not_mem_quote (text : List Char) : '&' ∉ quote text :=
  not_mem_encode (by decide) (by decide) _

theorem joined_inj {first second : List (List Char)} (hfirst : ∀ part ∈ first, '&' ∉ part)
    (hsecond : ∀ part ∈ second, '&' ∉ part) (hne : first ≠ []) (hne' : second ≠ [])
    (h : joined first = joined second) : first = second := by
  rw [← List.splitOn_intercalate '&' hfirst hne, ← List.splitOn_intercalate '&' hsecond hne']
  exact congrArg _ h

/-- A pair whose parts are encoded. -/
def Encoded (pair : List Char × List Char) : Prop := ∃ name value : List UInt8,
  pair = (encode name, encode value)

theorem pairText_inj {first second : List Char × List Char} (hfirst : Encoded first)
    (hsecond : Encoded second) (h : pairText first = pairText second) : first = second := by
  obtain ⟨name, value, rfl⟩ := hfirst
  obtain ⟨name', value', rfl⟩ := hsecond
  have hequals : ∀ octets, '=' ∉ encode octets := not_mem_encode (by decide) (by decide)
  obtain ⟨hname, hvalue⟩ := split_inj (hequals name) (hequals name') h
  exact Prod.ext hname hvalue

theorem ampersand_not_mem_pairText {pair : List Char × List Char} (h : Encoded pair) :
    '&' ∉ pairText pair := by
  obtain ⟨name, value, rfl⟩ := h
  have hencoded : ∀ octets, '&' ∉ encode octets := not_mem_encode (by decide) (by decide)
  simp [pairText, hencoded]

theorem map_pairText_inj {first second : List (List Char × List Char)}
    (hfirst : ∀ pair ∈ first, Encoded pair) (hsecond : ∀ pair ∈ second, Encoded pair)
    (h : first.map pairText = second.map pairText) : first = second := by
  induction first generalizing second with
  | nil =>
    cases second with
    | nil => rfl
    | cons pair rest => cases h
  | cons pair rest ih =>
    cases second with
    | nil => cases h
    | cons pair' rest' =>
      rw [List.map_cons, List.map_cons, List.cons.injEq] at h
      have hpair := pairText_inj (hfirst pair List.mem_cons_self)
        (hsecond pair' List.mem_cons_self) h.1
      have hrest := ih (fun other hmem => hfirst other (List.mem_cons_of_mem _ hmem))
        (fun other hmem => hsecond other (List.mem_cons_of_mem _ hmem)) h.2
      rw [hpair, hrest]

/-- Equal joins of encoded pairs are joins of equal pairs. -/
theorem joined_pairs_inj {first second : List (List Char × List Char)}
    (hfirst : ∀ pair ∈ first, Encoded pair) (hsecond : ∀ pair ∈ second, Encoded pair)
    (hne : first ≠ []) (hne' : second ≠ [])
    (h : joined (first.map pairText) = joined (second.map pairText)) : first = second := by
  refine map_pairText_inj hfirst hsecond (joined_inj ?_ ?_ ?_ ?_ h)
  · intro part hpart
    obtain ⟨pair, hpair, rfl⟩ := List.mem_map.mp hpart
    exact ampersand_not_mem_pairText (hfirst pair hpair)
  · intro part hpart
    obtain ⟨pair, hpair, rfl⟩ := List.mem_map.mp hpart
    exact ampersand_not_mem_pairText (hsecond pair hpair)
  · simpa using hne
  · simpa using hne'

/-- The three parts of a base string. -/
theorem parts_inj {method method' uri uri' parameters parameters' : List Char}
    (h : joined [quote method, quote uri, quote parameters] =
      joined [quote method', quote uri', quote parameters']) :
    method = method' ∧ uri = uri' ∧ parameters = parameters' := by
  have hquoted : ∀ first second third : List Char,
      ∀ part ∈ [quote first, quote second, quote third], '&' ∉ part := by
    intro first second third part hpart
    simp only [List.mem_cons, List.not_mem_nil, or_false] at hpart
    rcases hpart with rfl | rfl | rfl <;> exact ampersand_not_mem_quote _
  have hparts := joined_inj (hquoted method uri parameters)
    (hquoted method' uri' parameters') (by simp) (by simp) h
  simp only [List.cons.injEq, and_true] at hparts
  exact ⟨quote_injective hparts.1, quote_injective hparts.2.1, quote_injective hparts.2.2⟩

end Joins

section Parameters

variable {sign : List Char → List Char → String} {credentials : Credentials} {request : Request}

theorem perm_sortedPairs (pairs : List (List Char × List Char)) :
    (sortedPairs pairs).Perm pairs := List.perm_insertionSort _ _

theorem sortedPair_iff {first second : List Char × List Char} :
    SortedPair first second ↔ toLex first ≤ toLex second := Prod.Lex.le_iff.symm

theorem pairwise_sortedPairs (pairs : List (List Char × List Char)) :
    (sortedPairs pairs).Pairwise SortedPair := by
  have htotal : Std.Total fun first second : List Char × List Char =>
      toLex first ≤ toLex second := ⟨fun first second => le_total _ _⟩
  have htrans : IsTrans (List Char × List Char) fun first second =>
      toLex first ≤ toLex second := ⟨fun first second third => le_trans⟩
  exact (List.pairwise_insertionSort _ _).imp sortedPair_iff.mpr

theorem encodePair_injective : Function.Injective encodePair := by
  rintro ⟨name, value⟩ ⟨name', value'⟩ h
  simp only [encodePair, Prod.mk.injEq] at h
  have hname := String.toList_injective (quote_injective h.1)
  have hvalue := String.toList_injective (quote_injective h.2)
  rw [hname, hvalue]

theorem encoded_encodePair (parameter : String × String) : Encoded (encodePair parameter) :=
  ⟨octets parameter.1.toList, octets parameter.2.toList, rfl⟩

theorem encoded_sortedPairs (parameters : List (String × String)) :
    ∀ pair ∈ sortedPairs (parameters.map encodePair), Encoded pair := by
  intro pair hpair
  obtain ⟨parameter, -, rfl⟩ := List.mem_map.mp ((perm_sortedPairs _).subset hpair)
  exact encoded_encodePair parameter

/-- The parameters of the query that are not the signature, and the signed ones of the header. -/
theorem rfcParameters_apply :
    rfcParameters (apply sign credentials request) =
      ((request.url.params.filter fun parameter => parameter.1 ≠ "oauth_signature") ++
        oauthItems credentials).map
          fun parameter => (octets parameter.1.toList, octets parameter.2.toList) := by
  have hname : ∀ name : String,
      octets name.toList = octets "oauth_signature".toList ↔ name = "oauth_signature" := by
    intro name
    rw [octets_injective.eq_iff, String.toList_inj]
  have hdecode : ∀ text, decode (quote text) = octets text := fun text => decode_encode _
  have hheader : ((apply sign credentials request).authorization.filter
      fun value => value.1 ≠ "realm").map (fun value => (octets value.1.toList, decode value.2)) =
      (oauthItems credentials ++ [("oauth_signature",
        sign (quote credentials.consumerSecret.toList ++ '&' ::
          quote credentials.tokenSecret.toList) (baseString credentials request))]).map
        fun parameter => (octets parameter.1.toList, octets parameter.2.toList) := by
    simp [apply, oauthItems, hdecode]
  have hrequest : (apply sign credentials request).request = request := rfl
  unfold rfcParameters
  dsimp only
  rw [hheader, hrequest, ← List.map_append, List.filter_map]
  congr 1
  rw [List.filter_append]
  have hkept : ∀ parameter : String × String, ((fun parameter : List UInt8 × List UInt8 =>
      decide (parameter.1 ≠ octets "oauth_signature".toList)) ∘ fun parameter : String × String =>
        (octets parameter.1.toList, octets parameter.2.toList)) parameter =
      decide (parameter.1 ≠ "oauth_signature") := by
    intro parameter
    simp only [Function.comp_apply, ne_eq, hname]
  simp only [funext hkept]
  congr 1

end Parameters

section BaseUri

variable {url : Url}

theorem slash_not_mem_portText (port : ℕ) : '/' ∉ portText port := by
  intro hmem
  rw [portText, List.mem_cons] at hmem
  have hdigits : '/' ∈ Nat.toDigits 10 port := by
    have htext := hmem.resolve_left (by decide)
    simpa using htext
  have hdigit : '/'.isDigit = true := Nat.isDigit_of_mem_toDigits (by omega) (by omega) hdigits
  exact absurd hdigit (by decide)

/-- The port of a base URI. -/
def Url.sentPort (url : Url) : List Char :=
  (url.port.filter fun port => port ≠ defaultPort url.scheme).elim [] portText

theorem slash_not_mem_sentPort : '/' ∉ url.sentPort := by
  unfold Url.sentPort
  cases url.port.filter fun port => port ≠ defaultPort url.scheme with
  | none => exact List.not_mem_nil
  | some port => exact slash_not_mem_portText port

theorem sentPath_rooted : ∃ rest,
    (if url.rawPath.isEmpty then ['/'] else url.rawPath) = '/' :: rest := by
  rcases url.pathRooted with hempty | ⟨rest, hrest⟩
  · exact ⟨[], by rw [hempty]; rfl⟩
  · exact ⟨rest, by rw [hrest]; rfl⟩

theorem unquote_rooted (rest : List Char) : ∃ decoded, unquote ('/' :: rest) = '/' :: decoded := by
  unfold unquote
  split
  · rw [decode_plain (by decide)]
    exact ⟨_, rfl⟩
  · exact ⟨rest, rfl⟩

theorem baseUri_eq : baseUri url =
    url.scheme.text ++ "://".toList ++ (url.host ++ url.sentPort) ++ url.path := by
  have hpath : (if url.path.isEmpty then ['/'] else url.path) = url.path := by
    obtain ⟨rest, hrest⟩ := @sentPath_rooted url
    obtain ⟨decoded, hdecoded⟩ := unquote_rooted rest
    rw [Url.path, hrest, hdecoded]
    rfl
  unfold baseUri
  dsimp only
  rw [hpath, url.hostValid.1]
  congr 2
  unfold Url.sentPort
  cases hport : url.port with
  | none => simp
  | some port => cases hscheme : url.scheme <;> by_cases hdefault : port = 80 <;>
      by_cases hsecure : port = 443 <;> simp [defaultPort, Option.filter, hdefault, hsecure]

theorem rfcBaseUri_eq : rfcBaseUri url =
    url.scheme.text ++ "://".toList ++ (url.rawHost ++ url.sentPort) ++
      if url.rawPath.isEmpty then ['/'] else url.rawPath := by
  unfold rfcBaseUri Url.sentPort
  rw [url.rawHostValid.1]

/-- The base URI that is signed is the one of the request exactly when the host is exposed as it is
sent and the path has no percent-encoded octet. -/
theorem baseUri_eq_rfcBaseUri_iff :
    baseUri url = rfcBaseUri url ↔ url.host = url.rawHost ∧ '%' ∉ url.rawPath := by
  have hpath : url.path = (if url.rawPath.isEmpty then ['/'] else url.rawPath) ↔
      '%' ∉ url.rawPath := by
    unfold Url.path
    cases hraw : url.rawPath with
    | nil => simp [unquote]
    | cons c rest =>
      rw [← hraw]
      simpa [hraw] using unquote_eq_self_iff url.pathEscaped
  obtain ⟨sent, hsent⟩ := @sentPath_rooted url
  obtain ⟨decoded, hdecoded⟩ := unquote_rooted sent
  have hrooted : url.path = '/' :: decoded := by rw [Url.path, hsent, hdecoded]
  rw [baseUri_eq, rfcBaseUri_eq, ← hpath]
  constructor
  · intro h
    rw [hrooted, hsent] at h
    simp only [List.append_assoc, List.append_cancel_left_eq] at h
    rw [← List.append_assoc, ← List.append_assoc] at h
    have hauthority : ∀ host : List Char, '/' ∉ host → '/' ∉ host ++ url.sentPort := by
      intro host hhost
      rw [List.mem_append, not_or]
      exact ⟨hhost, slash_not_mem_sentPort⟩
    obtain ⟨hhost, hrest⟩ := split_inj (hauthority _ url.hostValid.2)
      (hauthority _ url.rawHostValid.2) h
    exact ⟨List.append_cancel_right hhost, by rw [hrooted, hsent, hrest]⟩
  · rintro ⟨hhost, hequal⟩
    rw [hhost, hequal]

end BaseUri

section Agreement

/-- The requests whose base string is the one of the RFC: the host is exposed as it is sent, the
path has no percent-encoded octet, and the query has no signature. -/
structure Plain (request : Request) : Prop where
  host : request.url.host = request.url.rawHost
  path : '%' ∉ request.url.rawPath
  query : ∀ parameter ∈ request.url.params, parameter.1 ≠ "oauth_signature"

variable {sign : List Char → List Char → String} {credentials credentials' : Credentials}
  {request request' : Request}

theorem encoded_rfcParameters {parameters : List (String × String)} :
    (parameters.map fun parameter => (octets parameter.1.toList, octets parameter.2.toList)).map
      (fun parameter => (encode parameter.1, encode parameter.2)) = parameters.map encodePair := by
  rw [List.map_map]
  rfl

theorem sortedPairs_ne_nil (parameters : List (String × String)) :
    sortedPairs ((parameters ++ oauthItems credentials).map encodePair) ≠ [] := by
  intro hempty
  have hlength := (perm_sortedPairs
    ((parameters ++ oauthItems credentials).map encodePair)).length_eq
  rw [hempty, List.length_map, List.length_append] at hlength
  simp [oauthItems] at hlength

theorem Plain.filter_params (h : Plain request) :
    request.url.params.filter (fun parameter => parameter.1 ≠ "oauth_signature") =
      request.url.params := by
  refine List.filter_eq_self.mpr ?_
  intro parameter hmem
  simpa using h.query parameter hmem

theorem rfcBaseString_of_plain (h : Plain request) :
    RfcBaseString (apply sign credentials request) (baseString credentials request) := by
  refine ⟨sortedPairs ((request.url.params ++ oauthItems credentials).map encodePair), ?_,
    pairwise_sortedPairs _, ?_⟩
  · rw [rfcParameters_apply, h.filter_params, encoded_rfcParameters]
    exact perm_sortedPairs _
  · rw [baseString, baseUri_eq_rfcBaseUri_iff.mpr ⟨h.host, h.path⟩]
    rfl

theorem plain_of_rfcBaseString
    (h : RfcBaseString (apply sign credentials request) (baseString credentials request)) :
    Plain request := by
  obtain ⟨pairs, hperm, -, htext⟩ := h
  rw [rfcParameters_apply, encoded_rfcParameters] at hperm
  obtain ⟨-, huri, hparameters⟩ := parts_inj htext
  obtain ⟨hhost, hpath⟩ := baseUri_eq_rfcBaseUri_iff.mp huri
  refine ⟨hhost, hpath, ?_⟩
  have hencoded : ∀ pair ∈ pairs, Encoded pair := by
    intro pair hpair
    obtain ⟨parameter, -, rfl⟩ := List.mem_map.mp (hperm.subset hpair)
    exact encoded_encodePair parameter
  have hne : pairs ≠ [] := by
    rintro rfl
    simpa [oauthItems] using hperm.length_eq
  have hpairs := joined_pairs_inj (encoded_sortedPairs _) hencoded (sortedPairs_ne_nil _) hne
    hparameters
  have hlength := (perm_sortedPairs
    ((request.url.params ++ oauthItems credentials).map encodePair)).length_eq
  rw [hpairs, hperm.length_eq] at hlength
  simp only [List.length_map, List.length_append, Nat.add_right_cancel_iff] at hlength
  have hall := List.length_filter_eq_length_iff.mp hlength
  intro parameter hmem
  simpa using hall parameter hmem

/-- Requests with equal base strings have equal base URIs and parameters. -/
theorem baseString_inj (h : baseString credentials request = baseString credentials' request') :
    baseUri request.url = baseUri request'.url ∧
      (request.url.params ++ oauthItems credentials).Perm
        (request'.url.params ++ oauthItems credentials') := by
  obtain ⟨-, huri, hparameters⟩ := parts_inj h
  have hpairs := joined_pairs_inj (encoded_sortedPairs _) (encoded_sortedPairs _)
    (sortedPairs_ne_nil _) (sortedPairs_ne_nil _) hparameters
  refine ⟨huri, (List.map_perm_map_iff encodePair_injective).mp ?_⟩
  exact (perm_sortedPairs _).symm.trans (hpairs ▸ perm_sortedPairs _)

/-- The base string that is signed is the one of the request that is sent if and only if the host
is exposed as it is sent, the path has no percent-encoded octet and the query has no signature. Of
such requests, those with equal base strings have equal base URIs and decoded parameters. -/
theorem signature_base_string (sign : List Char → List Char → String) (credentials : Credentials)
    (request : Request) :
    (RfcBaseString (apply sign credentials request) (baseString credentials request) ↔
      Plain request) ∧
    ∀ (credentials' : Credentials) (request' : Request), Plain request → Plain request' →
      baseString credentials request = baseString credentials' request' →
        rfcBaseUri request.url = rfcBaseUri request'.url ∧
          (rfcParameters (apply sign credentials request)).Perm
            (rfcParameters (apply sign credentials' request')) := by
  refine ⟨⟨plain_of_rfcBaseString, rfcBaseString_of_plain⟩, ?_⟩
  intro credentials' request' hplain hplain' h
  obtain ⟨huri, hperm⟩ := baseString_inj h
  have huris := baseUri_eq_rfcBaseUri_iff.mpr ⟨hplain.host, hplain.path⟩
  have huris' := baseUri_eq_rfcBaseUri_iff.mpr ⟨hplain'.host, hplain'.path⟩
  refine ⟨by rw [← huris, huri, huris'], ?_⟩
  rw [rfcParameters_apply, rfcParameters_apply, hplain.filter_params, hplain'.filter_params]
  exact hperm.map _

def exampleUrl (path : String) (hrooted : ∃ rest, path.toList = '/' :: rest)
    (hascii : path.toList.all (fun c => decide (c.toNat < 128)) = true)
    (hescaped : wellEscaped path.toList = true) : Url :=
  ⟨.https, "example.com".toList, "example.com".toList, none, path.toList, [], by decide, by decide,
    .inr hrooted, hascii, hescaped⟩

def escapedSlash : Url := exampleUrl "/a%2Fb" ⟨_, rfl⟩ (by decide) (by decide)

def plainSlash : Url := exampleUrl "/a/b" ⟨_, rfl⟩ (by decide) (by decide)

def exampleCredentials : Credentials :=
  ⟨"1234567_SB1", "ck", "cs", "tk", "ts", "nonce-1", "1700000000"⟩

/-- Two requests for different resources have one base string. -/
theorem paths_collide :
    ¬ RfcBaseString (apply (fun _ _ => "") exampleCredentials ⟨"GET".toList, escapedSlash⟩)
        (baseString exampleCredentials ⟨"GET".toList, escapedSlash⟩) ∧
      baseString exampleCredentials ⟨"GET".toList, escapedSlash⟩ =
        baseString exampleCredentials ⟨"GET".toList, plainSlash⟩ ∧
      rfcBaseUri escapedSlash ≠ rfcBaseUri plainSlash := by
  have huri : baseUri escapedSlash = baseUri plainSlash := by decide
  refine ⟨?_, ?_, by decide⟩
  · intro h
    exact (plain_of_rfcBaseString h).path (by decide)
  · unfold baseString
    rw [huri]
    rfl

end Agreement

end Dander.OAuth1
