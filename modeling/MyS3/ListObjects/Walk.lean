import MyS3.ListObjects.Request
import MyS3.ListObjects.Structure
import MyS3.Xml.Escape

/-!
# Walking a bucket page by page

The loop that feeds the token of a page into the request for the next one, against a
storage that goes by the token it finds in the query.
-/

namespace MyS3.ListObjects

open Xml Forest Query Separated

/-- What a walk has collected, and how many requests it took. -/
structure Walked where
  objects : List S3ObjectInfo
  commonPrefixes : List String
  calls : Nat
  deriving DecidableEq, Repr

/-- The loop over the pages: `token` is `None` before the first and behind the last. -/
def walk (list : Nat → Option String → Except S3Error S3ListObjectsPage) :
    Nat → Option String → Walked → Option (Except S3Error Walked)
  | 0, _, _ => none
  | fuel + 1, token, walked =>
    match list walked.calls token with
    | .error err => some (.error err)
    | .ok page =>
      let walked : Walked := ⟨walked.objects ++ page.objects,
        walked.commonPrefixes ++ page.commonPrefixes, walked.calls + 1⟩
      match page.nextContinuationToken with
      | none => some (.ok walked)
      | some token => walk list fuel (some token) walked

/-- One turn of the loop: the same request, with the token of the page before. -/
def listPage (R : MyXmlReader) (H : Hashes) (F : FlUrl)
    (send : SignedRequest → Except FlUrlError Answer) (s3 : S3Client) (clock : Nat → Bytes)
    (bucketName : String) (request : S3ListObjectsRequest) (call : Nat) (token : Option String) :
    Except S3Error S3ListObjectsPage :=
  listObjectsV2 R H F send s3 (clock call) bucketName { request with continuationToken := token }

/-- The last token of a listing that is not empty, as it stands in the document. -/
def rawToken (root : XmlElement) : Option String :=
  (((childrenNamed "NextContinuationToken" root).map rawText).filter (· ≠ "")).getLast?

/-- A page that the storage holds: what is on it, and the document that states it. The token
is written there in some way of escaping it. -/
structure StoredPage where
  objects : List S3ObjectInfo
  commonPrefixes : List String
  token : Option String
  document : XmlDocument
  listing : IsListing document.root
  objects_stated : objects.map some = (childrenNamed "Contents" document.root).map entry
  prefixes_found : ∀ commonPrefixes ∈ childrenNamed "CommonPrefixes" document.root,
    childrenNamed "Prefix" commonPrefixes ≠ []
  prefixes_stated :
    commonPrefixes = (childrenNamed "CommonPrefixes" document.root).flatMap prefixes
  token_stated : Option.Rel (fun raw token => Escapes raw.toList token.toList)
    (rawToken document.root) token

/-- A page is marked truncated or not. -/
def StoredPage.truncated (page : StoredPage) : Bool := isTruncated page.document.root

/-- A parameter of the query that a request was received with. -/
def parameter (name : String) (received : SignedRequest) : Option Bytes :=
  (splitOnce questionMark received.target).bind fun (_, query) =>
    ((decodedPairs query).find? fun pair => pair.1 == bytesOf name).map Prod.snd

/-- The storage serves these pages: the first to a request with this token, and each of the
others to a request with the token of the one before. It may look at the signature, the
prefix and the delimiter as well. -/
def Serves (H : Hashes) (secretKey : String) (request : S3ListObjectsRequest)
    (send : SignedRequest → Except FlUrlError Answer) : Option String → List StoredPage → Prop
  | _, [] => True
  | token, page :: pages =>
    (∀ received : SignedRequest, verifySignature H secretKey received = true →
      parameter "prefix" received = request.prefix_.map bytesOf →
      parameter "delimiter" received = request.delimiter.map bytesOf →
      parameter "continuation-token" received = token.map bytesOf →
      send received = .ok ⟨200, page.document.bytes⟩) ∧
    ∀ token, page.token = some token → Serves H secretKey request send (some token) pages

/-- The token that is read is the raw one, decoded. -/
theorem lastToken_eq (root : XmlElement) : lastToken root = (rawToken root).map unescape := by
  have hmap : (childrenNamed "NextContinuationToken" root).map elementText =
      ((childrenNamed "NextContinuationToken" root).map rawText).map unescape := by
    rw [List.map_map]
    rfl
  have hempty : ((fun text : String => decide (text ≠ "")) ∘ unescape) =
      fun text : String => decide (text ≠ "") := by
    funext text
    simp only [Function.comp_apply, ne_eq, unescape_eq_empty]
  rw [lastToken, rawToken, hmap, List.filter_map, hempty, List.getLast?_map]

/-- The storage's token is the one that is read. -/
theorem StoredPage.lastToken (page : StoredPage) : lastToken page.document.root = page.token := by
  have hstated := page.token_stated
  rw [lastToken_eq]
  generalize rawToken page.document.root = raw, page.token = token at hstated
  cases hstated with
  | none => rfl
  | some h => exact congrArg some (unescape_of_escapes h)

theorem StoredPage.not_broken (page : StoredPage) : ¬ Broken page.document.root := by
  rintro (⟨contents, hcontents, hbroken⟩ | ⟨commonPrefixes, hmem, hempty⟩)
  · have hnone : none ∈ (childrenNamed "Contents" page.document.root).map entry :=
      List.mem_map.mpr ⟨contents, hcontents, entry_eq_none_iff.mpr hbroken⟩
    rw [← page.objects_stated] at hnone
    obtain ⟨object, -, hobject⟩ := List.mem_map.mp hnone
    cases hobject
  · exact page.prefixes_found commonPrefixes hmem hempty

section Calls

variable {R : MyXmlReader} {At : R.State → Position XmlTag CharData → Prop} {H : Hashes}
  {F : FlUrl} {send : SignedRequest → Except FlUrlError Answer} {s3 : S3Client}
  {timestamp : Bytes} {bucketName : String} {request : S3ListObjectsRequest}
  {signed : SignedRequest}

/-- A page that can be gone on from, or that is the last, is read as it is stored. -/
private theorem parse_storedPage (hR : R.ByStructure At) (page : StoredPage)
    (h : page.truncated = true → page.token ≠ none) :
    parseListObjectsV2 R page.document.bytes = .ok ⟨page.commonPrefixes, page.objects,
      if page.truncated then page.token else none⟩ := by
  rcases parse_cases hR page.document page.listing with
    ⟨⟨commonPrefixes, objects, token⟩, hparse, hstates, -, -⟩ | ⟨-, hbroken | ⟨htruncated, hnone⟩⟩
  · have hobjects : objects = page.objects :=
      List.map_injective_iff.mpr (fun _ _ => Option.some.inj)
        (hstates.objects.trans page.objects_stated.symm)
    have hprefixes : commonPrefixes = page.commonPrefixes :=
      hstates.commonPrefixes.trans page.prefixes_stated.symm
    have htoken : token = if page.truncated then page.token else none := by
      rw [← page.lastToken]
      exact hstates.token
    rw [hparse, hobjects, hprefixes, htoken]
  · exact absurd hbroken page.not_broken
  · exact absurd (page.lastToken.symm.trans hnone) (h htruncated)

/-- A truncated page without a token is an error. -/
private theorem parse_without_token (hR : R.ByStructure At) (page : StoredPage)
    (htruncated : page.truncated = true) (htoken : page.token = none) :
    ∃ err, parseListObjectsV2 R page.document.bytes = .error err := by
  rcases parse_cases hR page.document page.listing with ⟨_, -, -, -, hsome⟩ | ⟨herr, -⟩
  · exact absurd (page.lastToken.trans htoken) (hsome htruncated)
  · exact herr

/-- The query that arrives asks for what the request does. -/
private theorem parameter_signListRequest (hF : F.Verbatim)
    (h : signListRequest H F s3 timestamp bucketName request = .ok signed) (name : String) :
    parameter name signed =
      (request.pairs.find? fun pair => pair.1 == bytesOf name).map Prod.snd := by
  obtain ⟨url, hquery, hpath, hsign⟩ := signListRequest_query hF h
  cases hsign
  have htarget : splitOnce questionMark url.target = some (url.path, listQuery request) := by
    simp only [UrlBuilder.target, hquery]
    exact splitOnce_append hpath
  simp only [parameter, htarget, Option.bind_some, listQuery_eq, decodedPairs_joined]

/-- A call whose request the storage serves reads the body that it is served. -/
private theorem listObjectsV2_served (hF : F.Verbatim)
    (hendpoint : ∀ ending, ∃ url, F.build s3.endpoint ending = .ok url) {body : Bytes}
    (hserved : ∀ received : SignedRequest, verifySignature H s3.secretKey received = true →
      parameter "prefix" received = request.prefix_.map bytesOf →
      parameter "delimiter" received = request.delimiter.map bytesOf →
      parameter "continuation-token" received = request.continuationToken.map bytesOf →
      send received = .ok ⟨200, body⟩) :
    listObjectsV2 R H F send s3 timestamp bucketName request = parseListObjectsV2 R body := by
  obtain ⟨url, hurl⟩ := hendpoint (pathAndQuery bucketName request)
  obtain ⟨signed, hsigned⟩ :
      ∃ signed, signListRequest H F s3 timestamp bucketName request = .ok signed := by
    rw [signListRequest, hurl]
    exact ⟨_, rfl⟩
  obtain ⟨hkeys, hdelimiter, htoken, -⟩ := find_pairs request
  have hsend := hserved signed (verifySignature_signListRequest hF hsigned)
    ((parameter_signListRequest hF hsigned _).trans hkeys)
    ((parameter_signListRequest hF hsigned _).trans hdelimiter)
    ((parameter_signListRequest hF hsigned _).trans htoken)
  simp only [listObjectsV2, hsigned, hsend, bind, Except.bind, Except.mapError, readSuccessBody]
  rfl

end Calls

section Walks

variable {R : MyXmlReader} {At : R.State → Position XmlTag CharData → Prop} {H : Hashes}
  {F : FlUrl} {send : SignedRequest → Except FlUrlError Answer} {s3 : S3Client}
  {clock : Nat → Bytes} {bucketName : String} {request : S3ListObjectsRequest}
  {body : List StoredPage} {last : StoredPage} {token : Option String} {walked : Walked}
  {fuel : Nat}

/-- What the storage serves for a token is what the call with that token reads. -/
private theorem listPage_served (hF : F.Verbatim)
    (hendpoint : ∀ ending, ∃ url, F.build s3.endpoint ending = .ok url) {page : StoredPage}
    {pages : List StoredPage}
    (hserves : Serves H s3.secretKey request send token (page :: pages)) (call : Nat) :
    listPage R H F send s3 clock bucketName request call token =
      parseListObjectsV2 R page.document.bytes :=
  listObjectsV2_served hF hendpoint hserves.1

/-- From any page on, the walk collects that page and all behind it. -/
private theorem walk_from (hR : R.ByStructure At) (hF : F.Verbatim)
    (hendpoint : ∀ ending, ∃ url, F.build s3.endpoint ending = .ok url)
    (hbody : ∀ page ∈ body, page.truncated = true ∧ page.token ≠ none)
    (hlast : last.truncated = false)
    (hserves : Serves H s3.secretKey request send token (body ++ [last]))
    (hfuel : body.length < fuel) :
    walk (listPage R H F send s3 clock bucketName request) fuel token walked =
      some (.ok ⟨walked.objects ++ (body ++ [last]).flatMap StoredPage.objects,
        walked.commonPrefixes ++ (body ++ [last]).flatMap StoredPage.commonPrefixes,
        walked.calls + (body.length + 1)⟩) := by
  induction body generalizing token walked fuel with
  | nil =>
    obtain ⟨fuel, rfl⟩ := Nat.exists_eq_succ_of_ne_zero (Nat.ne_zero_of_lt hfuel)
    have hparse := parse_storedPage hR last fun h => absurd (hlast.symm.trans h) (by decide)
    rw [hlast] at hparse
    simp only [walk, listPage_served hF hendpoint hserves, hparse, Bool.false_eq_true, if_false,
      List.nil_append, List.flatMap_singleton, List.length_nil, Nat.zero_add]
  | cons page body ih =>
    obtain ⟨fuel, rfl⟩ := Nat.exists_eq_succ_of_ne_zero (Nat.ne_zero_of_lt hfuel)
    obtain ⟨htruncated, htoken⟩ := hbody page List.mem_cons_self
    obtain ⟨text, htext⟩ := Option.ne_none_iff_exists'.mp htoken
    have hparse := parse_storedPage hR page fun _ => htoken
    rw [htruncated, if_pos rfl, htext] at hparse
    simp only [walk, listPage_served hF hendpoint hserves, hparse]
    refine (ih (fun p hp => hbody p (List.mem_cons_of_mem _ hp)) (hserves.2 text htext)
      (Nat.lt_of_succ_lt_succ hfuel)).trans ?_
    simp only [List.cons_append, List.flatMap_cons, List.append_assoc, List.length_cons]
    rw [Nat.add_assoc, Nat.add_comm 1]

/-- A truncated page without a token ends the walk in an error. -/
private theorem walk_without_token (hR : R.ByStructure At) (hF : F.Verbatim)
    (hendpoint : ∀ ending, ∃ url, F.build s3.endpoint ending = .ok url)
    (hbody : ∀ page ∈ body, page.truncated = true)
    (hserves : Serves H s3.secretKey request send token (body ++ [last]))
    (hnone : ∃ page ∈ body, page.token = none) (hfuel : body.length < fuel) :
    ∃ err, walk (listPage R H F send s3 clock bucketName request) fuel token walked =
      some (.error err) := by
  induction body generalizing token walked fuel with
  | nil =>
    obtain ⟨page, hpage, -⟩ := hnone
    cases hpage
  | cons page body ih =>
    obtain ⟨fuel, rfl⟩ := Nat.exists_eq_succ_of_ne_zero (Nat.ne_zero_of_lt hfuel)
    have htruncated := hbody page List.mem_cons_self
    cases htoken : page.token with
    | none =>
      obtain ⟨err, hparse⟩ := parse_without_token hR page htruncated htoken
      refine ⟨err, ?_⟩
      simp only [walk, listPage_served hF hendpoint hserves, hparse]
    | some text =>
      have hparse := parse_storedPage hR page fun _ h => by cases htoken.symm.trans h
      rw [htruncated, if_pos rfl, htoken] at hparse
      simp only [walk, listPage_served hF hendpoint hserves, hparse]
      refine ih (fun p hp => hbody p (List.mem_cons_of_mem _ hp)) (hserves.2 text htoken) ?_
        (Nat.lt_of_succ_lt_succ hfuel)
      obtain ⟨p, hp, hpnone⟩ := hnone
      rcases List.mem_cons.mp hp with rfl | hp
      · cases htoken.symm.trans hpnone
      · exact ⟨p, hp, hpnone⟩

end Walks

/-- A walk loses and repeats nothing: against a storage that serves the pages by their
tokens it ends behind the last one, with the entries and prefixes of all of them in order. A
page in between that is truncated and carries no token makes it end in an error. -/
theorem walk_complete {R : MyXmlReader} {At : R.State → Position XmlTag CharData → Prop}
    (hR : R.ByStructure At) (H : Hashes) {F : FlUrl} (hF : F.Verbatim) {s3 : S3Client}
    (hendpoint : ∀ ending, ∃ url, F.build s3.endpoint ending = .ok url)
    (send : SignedRequest → Except FlUrlError Answer) (clock : Nat → Bytes)
    (bucketName : String) (request : S3ListObjectsRequest) (body : List StoredPage)
    (last : StoredPage) (hbody : ∀ page ∈ body, page.truncated = true)
    (hlast : last.truncated = false)
    (hserves : Serves H s3.secretKey request send none (body ++ [last])) (fuel : Nat)
    (hfuel : body.length < fuel) :
    ((∀ page ∈ body, page.token ≠ none) →
      walk (listPage R H F send s3 clock bucketName request) fuel none ⟨[], [], 0⟩ =
        some (.ok ⟨(body ++ [last]).flatMap StoredPage.objects,
          (body ++ [last]).flatMap StoredPage.commonPrefixes, (body ++ [last]).length⟩)) ∧
    ((∃ page ∈ body, page.token = none) →
      ∃ err, walk (listPage R H F send s3 clock bucketName request) fuel none ⟨[], [], 0⟩ =
        some (.error err)) := by
  constructor
  · intro htokens
    have hpages : ∀ page ∈ body, page.truncated = true ∧ page.token ≠ none := by
      intro page hpage
      exact ⟨hbody page hpage, htokens page hpage⟩
    apply (walk_from hR hF hendpoint hpages hlast hserves hfuel).trans
    simp only [List.nil_append, Nat.zero_add, List.length_append, List.length_singleton]
  · intro hnone
    exact walk_without_token hR hF hendpoint hbody hserves hnone hfuel

section Storage

/-- The pages of a storage by the token that asks for each. -/
def pageTable : Option String → List StoredPage → List (Option String × Bytes)
  | _, [] => []
  | token, page :: pages =>
    (token, page.document.bytes) ::
      match page.token with
      | none => []
      | some next => pageTable (some next) pages

/-- A storage that verifies a request and looks up the token in its query. -/
def pageStorage (H : Hashes) (secretKey : String) (table : List (Option String × Bytes))
    (received : SignedRequest) : Except FlUrlError Answer :=
  if verifySignature H secretKey received then
    match table.find? fun page =>
        page.1.map bytesOf == parameter "continuation-token" received with
    | some page => .ok ⟨200, page.2⟩
    | none => .ok ⟨404, []⟩
  else .ok ⟨403, []⟩

private theorem find_page {table : List (Option String × Bytes)}
    (hdistinct : (table.map Prod.fst).Nodup) {page : Option String × Bytes}
    (hpage : page ∈ table) :
    table.find? (fun other => other.1.map bytesOf == page.1.map bytesOf) = some page := by
  induction table with
  | nil => cases hpage
  | cons first table ih =>
    rw [List.map_cons, List.nodup_cons] at hdistinct
    rcases List.mem_cons.mp hpage with rfl | hmem
    · exact List.find?_cons_of_pos BEq.rfl
    · have hne : first.1.map bytesOf ≠ page.1.map bytesOf := by
        intro heq
        have htoken := Option.map_injective (fun _ _ => bytesOf_injective) heq
        exact hdistinct.1 (htoken ▸ List.mem_map_of_mem hmem)
      rw [List.find?_cons_of_neg (by simpa using hne)]
      exact ih hdistinct.2 hmem

/-- Where the tokens are pairwise distinct, this storage serves its pages. -/
theorem serves_pageStorage (H : Hashes) (secretKey : String) (request : S3ListObjectsRequest)
    {pages : List StoredPage} (hdistinct : ((pageTable none pages).map Prod.fst).Nodup) :
    Serves H secretKey request (pageStorage H secretKey (pageTable none pages)) none pages := by
  have hserves : ∀ (token : Option String) (rest : List StoredPage),
      pageTable token rest ⊆ pageTable none pages →
        Serves H secretKey request (pageStorage H secretKey (pageTable none pages)) token rest := by
    intro token rest hsub
    induction rest generalizing token with
    | nil => trivial
    | cons page rest ih =>
      constructor
      · intro received hverify _ _ htoken
        have hfind := find_page hdistinct (hsub List.mem_cons_self)
        simp only [pageStorage, hverify, if_true, htoken, hfind]
      · intro next hnext
        apply ih (some next)
        intro served hserved
        apply hsub
        apply List.mem_cons_of_mem
        rw [hnext]
        exact hserved
  exact hserves none pages (List.Subset.refl _)

end Storage

/-- A document without a prolog. -/
private def listingOf (content : XmlContent) : XmlDocument where
  head := ""
  prolog := ⟨[], by decide, by decide⟩
  trailer := ⟨"", by decide⟩
  root := ⟨listTag, some content⟩

private theorem token_written {root : XmlElement} {raw token : String}
    (hraw : rawToken root = some raw) (hescape : raw.toList = token.toList.flatMap escapeChar) :
    Option.Rel (fun raw token => Escapes raw.toList token.toList) (rawToken root)
      (some token) := by
  rw [hraw]
  exact .some (hescape ▸ escapes_flatMap token.toList)

/-- A truncated page with one entry, whose token holds a `+`, a `/`, a `=` and an `&`. -/
private def firstPage : StoredPage where
  objects := [⟨"a", 1, "u", none⟩]
  commonPrefixes := []
  token := some "x+/=&"
  document := listingOf
    (textField isTruncatedTag ⟨"true", by decide⟩
    (textField tokenTag ⟨"x+/=&amp;", by decide⟩
    (.branch contentsTag
      (textField keyTag ⟨"a", by decide⟩
      (textField lastModifiedTag ⟨"u", by decide⟩
      (textField sizeTag ⟨"1", by decide⟩ .nil))) .nil)))
  listing := ⟨by decide, by decide +kernel, by decide +kernel, by decide +kernel,
    by decide +kernel⟩
  objects_stated := by decide +kernel
  prefixes_found := by decide +kernel
  prefixes_stated := by decide +kernel
  token_stated := token_written (show _ = some "x+/=&amp;" by decide +kernel) (by decide)

/-- A last page with a prefix and a token that is left over. -/
private def finalPage : StoredPage where
  objects := []
  commonPrefixes := ["p/"]
  token := some "y"
  document := listingOf
    (.branch commonPrefixesTag
      (textField prefixTag ⟨"p/", by decide⟩ .nil)
    (textField tokenTag ⟨"y", by decide⟩ .nil))
  listing := ⟨by decide, by decide +kernel, by decide +kernel, by decide +kernel,
    by decide +kernel⟩
  objects_stated := by decide +kernel
  prefixes_found := by decide +kernel
  prefixes_stated := by decide +kernel
  token_stated := token_written (show _ = some "y" by decide +kernel) (by decide)

/-- A truncated page that says nothing about how to go on. -/
private def silentPage : StoredPage where
  objects := []
  commonPrefixes := []
  token := none
  document := listingOf (textField isTruncatedTag ⟨"true", by decide⟩ .nil)
  listing := ⟨by decide, by decide +kernel, by decide +kernel, by decide +kernel,
    by decide +kernel⟩
  objects_stated := by decide +kernel
  prefixes_found := by decide +kernel
  prefixes_stated := by decide +kernel
  token_stated := .none

theorem walk_complete_two :
    let H : Hashes := ⟨fun bytes => bytes.take 32, fun key bytes => key ++ bytes⟩
    let s3 : S3Client := ⟨"AKIAEXAMPLE", "secret", .awsEuWest1, "http://127.0.0.1:9000"⟩
    let request : S3ListObjectsRequest := ⟨some "é+ ", some "/", none, none⟩
    let list := fun pages : List StoredPage => listPage pullReader H rawEndingUrl
      (pageStorage H s3.secretKey (pageTable none pages)) s3
      (fun _ => bytesOf "20240701T123456Z") "photos" request
    walk (list [firstPage, finalPage]) 2 none ⟨[], [], 0⟩ =
        some (.ok ⟨[⟨"a", 1, "u", none⟩], ["p/"], 2⟩) ∧
      ∃ err, walk (list [firstPage, silentPage, finalPage]) 3 none ⟨[], [], 0⟩ =
        some (.error err) := by
  intro H s3 request list
  have hendpoint : ∀ ending, ∃ url, rawEndingUrl.build s3.endpoint ending = .ok url := by
    intro ending
    simp only [rawEndingUrl]
    split
    · exact ⟨_, rfl⟩
    · exact ⟨_, rfl⟩
  constructor
  · exact (walk_complete pullReader_byStructure H rawEndingUrl_verbatim hendpoint
      (pageStorage H s3.secretKey (pageTable none [firstPage, finalPage]))
      (fun _ => bytesOf "20240701T123456Z") "photos" request [firstPage] finalPage
      (by decide +kernel) (by decide +kernel)
      (serves_pageStorage H s3.secretKey request (by decide)) 2 (by decide)).1 (by decide)
  · exact (walk_complete pullReader_byStructure H rawEndingUrl_verbatim hendpoint
      (pageStorage H s3.secretKey (pageTable none [firstPage, silentPage, finalPage]))
      (fun _ => bytesOf "20240701T123456Z") "photos" request [firstPage, silentPage] finalPage
      (by decide +kernel) (by decide +kernel)
      (serves_pageStorage H s3.secretKey request (by decide)) 3 (by decide)).2
      ⟨silentPage, by simp, rfl⟩

end MyS3.ListObjects
