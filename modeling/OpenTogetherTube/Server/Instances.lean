import OpenTogetherTube.Lib.Url

/-!
# Requests to instances

A video of an instance of Invidious or of PeerTube has the id `host:id`, and the information about
it is fetched from that host. A link is accepted if its host is in `allowedHosts`. An id may also
come from a client as it is, and then nothing looks at the host: the adapters splice it into the
text of a URL, in which any delimiter counts. `contacts_listed_iff` says which ids lead to listed
hosts only.

Requests are modelled by the origins they go to; a text that is no URL makes none. The replies to
them decide which are made next.
-/

namespace OpenTogetherTube.Server.Instances

open OpenTogetherTube.Lib Url

/-! ## Ids -/

def isUnreserved (c : Char) : Bool := c.isAlphanum || "-_.!~*'()".toList.contains c

def percentEncode (byte : UInt8) : List Char :=
  ['%', (Nat.digitChar (byte.toNat / 16)).toUpper, (Nat.digitChar (byte.toNat % 16)).toUpper]

def encodeURIComponent (text : String) : String :=
  String.ofList (text.toList.flatMap (fun c =>
    if isUnreserved c then [c] else (String.utf8EncodeChar c).flatMap percentEncode))

/-- The text before the last colon, and behind it. -/
def splitLast (text : String) : Option (String × String) :=
  if ':' ∈ text.toList then
    some (String.ofList (text.toList.rdropWhile (fun c => c ≠ ':')).dropLast,
      String.ofList (text.toList.rtakeWhile (fun c => c ≠ ':')))
  else none

/-- The first two parts of `text.split(":")`, if there are two. -/
def splitFirst (text : String) : Option (String × String) :=
  if ':' ∈ text.toList then
    some (String.ofList (text.toList.takeWhile (fun c => c ≠ ':')),
      String.ofList
        (((text.toList.dropWhile (fun c => c ≠ ':')).drop 1).takeWhile (fun c => c ≠ ':')))
  else none

/-! ## The adapters -/

/-- How a request ends: with data, which has a title or not; with an HTTP error; or without any
response. -/
inductive Reply where
  | data (title : Bool)
  | status (status : Nat)
  | failed
  deriving DecidableEq, Repr

/-- The replies to the request with `local=1`, and to the one without. -/
structure Replies where
  proxied : Reply
  plain : Reply

section Adapters

variable (hostParser : String → Option String)

/-- `this.api.get(url)`. -/
def get (url : String) : List Origin := (parse hostParser url).toList

namespace Invidious

/-- The URL gets a query, and its text is parsed again. Both leave the origin as it is. -/
def manifestUrl (host id type : String) : Option Origin :=
  parse hostParser
    ("https://" ++ host ++ "/api/manifest/" ++ type ++ "/id/" ++ encodeURIComponent id)

def probeManifest (host id kind : String) : List Origin :=
  (manifestUrl hostParser host id kind).toList

/-- `parseAsDirect`. -/
def parseAsDirect (host id : String) : List Origin :=
  probeManifest hostParser host id "dash" ++ probeManifest hostParser host id "hls"

def fetchVideoInfo (replies : Replies) (videoId : String) : List Origin :=
  match splitLast videoId with
  | none => []
  | some (host, id) =>
    let baseUrl := "https://" ++ host ++ "/api/v1/videos/" ++ encodeURIComponent id
    get hostParser (baseUrl ++ "?local=1") ++
      match replies.proxied with
      | .data title => if title then parseAsDirect hostParser host id else []
      | .status 429 => []
      | .status _ | .failed =>
        get hostParser baseUrl ++
          if replies.plain = .data true then parseAsDirect hostParser host id else []

end Invidious

def PeerTube.fetchVideoInfo (videoId : String) : List Origin :=
  match splitFirst videoId with
  | none => []
  | some (host, id) => get hostParser ("https://" ++ host ++ "/api/v1/videos/" ++ id)

inductive Service where
  | invidious
  | peertube
  deriving DecidableEq, Repr

def Service.fetchVideoInfo (replies : Replies) (videoId : String) : Service → List Origin
  | .invidious => Invidious.fetchVideoInfo hostParser replies videoId
  | .peertube => PeerTube.fetchVideoInfo hostParser videoId

/-- `getVideoInfo`. The id is the one it was called with, whoever it comes from. -/
def getVideoInfo (missingInfo : Bool) (replies : Replies) (service : Service) (videoId : String) :
    List Origin :=
  if missingInfo then service.fetchVideoInfo hostParser replies videoId else []

/-! ## The specification -/

/-- The host is listed, as `canHandleURL` looks for the host of a link. -/
def Service.Allows (allowedHosts : List String) (origin : Origin) : Service → Prop
  | .invidious => origin.host ∈ allowedHosts ∨ origin.hostname ∈ allowedHosts
  | .peertube => origin.host ∈ allowedHosts

/-- **The purpose**: every request goes to a listed host. -/
def ContactsListed (service : Service) (allowedHosts : List String) (videoId : String) : Prop :=
  ∀ missingInfo replies, ∀ origin ∈ getVideoInfo hostParser missingInfo replies service videoId,
    service.Allows allowedHosts origin

/-- The part of the id that is taken for a host. -/
def Service.hostOf (videoId : String) : Service → Option String
  | .invidious => (splitLast videoId).map Prod.fst
  | .peertube => (splitFirst videoId).map Prod.fst

/-- Where the host leads, in front of a path that begins with `/api/`. -/
def originOf (host : String) : Option Origin :=
  readAuthority hostParser (splicedAuthority host.toList ['a', 'p', 'i'])

/-- **The condition**: the id names no host, or one that leads nowhere, or to a listed host. -/
def HostListed (service : Service) (allowedHosts : List String) (videoId : String) : Prop :=
  ∀ host ∈ service.hostOf videoId, ∀ origin ∈ originOf hostParser host,
    service.Allows allowedHosts origin

end Adapters

/-! ## Requests -/

section Requests

variable {hostParser : String → Option String} {host : String}

/-- **Whatever the path, the host decides.** -/
theorem parse_api (rest : String) :
    parse hostParser ("https://" ++ host ++ "/api/" ++ rest) = originOf hostParser host := by
  have hapi : "/api/" = "/" ++ "api" ++ "/" := rfl
  rw [hapi, ← String.append_assoc, ← String.append_assoc]
  exact parse_splice hostParser host "api" rest (by simp) (by simp [isTabOrNewline, endsAuthority])

theorem get_videos (rest : String) :
    get hostParser ("https://" ++ host ++ "/api/v1/videos/" ++ rest) =
      (originOf hostParser host).toList := by
  have hpath : "/api/v1/videos/" = "/api/" ++ "v1/videos/" := rfl
  unfold get
  rw [hpath, ← String.append_assoc, String.append_assoc, parse_api]

theorem probeManifest_eq (id kind : String) :
    Invidious.probeManifest hostParser host id kind = (originOf hostParser host).toList := by
  have hpath : "/api/manifest/" = "/api/" ++ "manifest/" := rfl
  unfold Invidious.probeManifest Invidious.manifestUrl
  rw [hpath, ← String.append_assoc, String.append_assoc, String.append_assoc, String.append_assoc,
    parse_api]

/-- All requests of an id go where its host leads, and one is made if it leads anywhere. -/
theorem Invidious.mem_fetchVideoInfo {replies : Replies} {videoId : String} {origin : Origin} :
    origin ∈ Invidious.fetchVideoInfo hostParser replies videoId ↔
      ∃ host ∈ (splitLast videoId).map Prod.fst, origin ∈ originOf hostParser host := by
  unfold Invidious.fetchVideoInfo
  cases splitLast videoId with
  | none => simp
  | some parts =>
    obtain ⟨host, id⟩ := parts
    have hprobes : ∀ o ∈ Invidious.parseAsDirect hostParser host id,
        o ∈ originOf hostParser host := by
      unfold Invidious.parseAsDirect
      rw [probeManifest_eq, probeManifest_eq]
      simp
    simp only [Option.map_some, Option.mem_def, Option.some.injEq, exists_eq_left']
    rw [String.append_assoc, get_videos, get_videos, List.mem_append, Option.mem_toList]
    refine ⟨fun hmem => hmem.elim (fun hfirst => hfirst) (fun hlater => ?_), .inl⟩
    -- what follows depends on the replies, and goes to the same host
    have hmaybe : ∀ p : Prop, ∀ _ : Decidable p,
        origin ∈ (if p then Invidious.parseAsDirect hostParser host id else []) →
          origin ∈ originOf hostParser host := by
      intro p _ hmem
      split at hmem
      · exact hprobes origin hmem
      · cases hmem
    split at hlater
    · exact hmaybe _ _ hlater
    · cases hlater
    · obtain hplain | hlater := List.mem_append.mp hlater
      · exact Option.mem_toList.mp hplain
      · exact hmaybe _ _ hlater
    · obtain hplain | hlater := List.mem_append.mp hlater
      · exact Option.mem_toList.mp hplain
      · exact hmaybe _ _ hlater

theorem PeerTube.mem_fetchVideoInfo {videoId : String} {origin : Origin} :
    origin ∈ PeerTube.fetchVideoInfo hostParser videoId ↔
      ∃ host ∈ (splitFirst videoId).map Prod.fst, origin ∈ originOf hostParser host := by
  unfold PeerTube.fetchVideoInfo
  cases splitFirst videoId with
  | none => simp
  | some parts =>
    simp only [Option.map_some, Option.mem_def, Option.some.injEq, exists_eq_left']
    rw [get_videos, Option.mem_toList]

theorem Service.mem_fetchVideoInfo {service : Service} {replies : Replies} {videoId : String}
    {origin : Origin} : origin ∈ service.fetchVideoInfo hostParser replies videoId ↔
      ∃ host ∈ service.hostOf videoId, origin ∈ originOf hostParser host := by
  cases service with
  | invidious => exact Invidious.mem_fetchVideoInfo
  | peertube => exact PeerTube.mem_fetchVideoInfo

end Requests

/-- **An id leads to listed hosts only, if and only if its host is listed**, as the URL standard
reads it. -/
theorem contacts_listed_iff (hostParser : String → Option String) (service : Service)
    (allowedHosts : List String) (videoId : String) :
    ContactsListed hostParser service allowedHosts videoId ↔
      HostListed hostParser service allowedHosts videoId := by
  constructor
  · intro hlisted host hhost origin horigin
    have hmem : origin ∈ service.fetchVideoInfo hostParser ⟨.failed, .failed⟩ videoId :=
      Service.mem_fetchVideoInfo.mpr ⟨host, hhost, horigin⟩
    exact hlisted true ⟨.failed, .failed⟩ origin hmem
  · intro hlisted missingInfo replies origin hmem
    cases missingInfo with
    | false => cases hmem
    | true =>
      obtain ⟨host, hhost, horigin⟩ := Service.mem_fetchVideoInfo.mp hmem
      exact hlisted host hhost origin horigin

/-- The ids of the videos of a listed instance, in ordinary use. -/
theorem hostListed_of_plain {hostParser : String → Option String} {service : Service}
    {allowedHosts : List String} {videoId host : String}
    (hhost : service.hostOf videoId = some host) (hlisted : host ∈ allowedHosts)
    (hparse : hostParser host = some host) (hne : host.toList ≠ [])
    (hplain : ∀ c ∈ host.toList, isTabOrNewline c = false ∧ endsAuthority c = false ∧ c ≠ '@' ∧
      c ≠ ':') : HostListed hostParser service allowedHosts videoId := by
  have hclean : clean host.toList = host.toList := clean_eq_self (fun c hc => (hplain c hc).1)
  obtain ⟨hdrop, hself⟩ := authority_eq_self (fun c hc => (hplain c hc).2.1)
  have hspliced : splicedAuthority host.toList ['a', 'p', 'i'] = host.toList := by
    unfold splicedAuthority
    rw [hclean, hdrop, if_neg hne, hself]
  intro host' hhost' origin horigin
  cases hhost.symm.trans hhost'
  unfold originOf at horigin
  rw [hspliced, readAuthority_plain hostParser hne (fun hat => (hplain _ hat).2.2.1 rfl)
    (fun hcolon => (hplain _ hcolon).2.2.2 rfl), String.ofList_toList, hparse] at horigin
  cases horigin
  cases service with
  | invidious => exact .inl hlisted
  | peertube => exact hlisted

/-- The host parser, on a name in small letters and dots. -/
def parseName (host : String) : Option String := if host = "" then none else some host

/-- **An id that a client sends can name any host.** -/
theorem not_contacts_listed : ¬ ∀ (service : Service) (allowedHosts : List String)
    (videoId : String), ContactsListed parseName service allowedHosts videoId := by
  intro h
  have hmem : ⟨"metadata.internal", none⟩ ∈
      getVideoInfo parseName true ⟨.failed, .failed⟩ .invidious "metadata.internal:x" := by
    decide +kernel
  obtain hhost | hhostname := h .invidious ["inv.nadeko.net"] "metadata.internal:x" true _ _ hmem
  · revert hhost
    decide
  · revert hhostname
    decide

end OpenTogetherTube.Server.Instances
