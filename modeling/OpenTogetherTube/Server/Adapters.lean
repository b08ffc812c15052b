import OpenTogetherTube.Common.Models
import OpenTogetherTube.Lib.Lines
import OpenTogetherTube.Server.Instances

/-!
# Which adapter a link is for

A link is given to the first adapter that can handle it, and the adapter reads the id of a video from
it. Most adapters look at the parts of the `URL`, those of services without ids of their own look for
an extension, and two match the text.

The URL parsers and `normalize` are those of the runtime, whatever they do. Matching a regular
expression is written out; `behind` is a choice of literals in one.
-/

namespace OpenTogetherTube.Server.Adapters

open OpenTogetherTube.Common OpenTogetherTube.Lib

/-! ## Texts -/

def endsWith (text ending : String) : Bool := ending.toList.isSuffixOf text.toList

def split (text : String) (sep : Char) : List String :=
  (text.toList.splitOn sep).map String.ofList

/-- White space and line terminators. -/
def isWhite (c : Char) : Bool :=
  (9 ≤ c.toNat && c.toNat ≤ 13) || (0x2000 ≤ c.toNat && c.toNat ≤ 0x200A) ||
    [0x20, 0xA0, 0x1680, 0x2028, 0x2029, 0x202F, 0x205F, 0x3000, 0xFEFF].contains c.toNat

def trim (text : String) : String := String.ofList (Lines.trim isWhite text.toList)

/-- What `.` matches. -/
def isAny (c : Char) : Bool := c ∉ ['\n', '\r', '\u2028', '\u2029']

def isWordChar (c : Char) : Bool := c.isAlphanum || c = '_'

/-- `[A-Za-z0-9_-]`. -/
def isIdChar (c : Char) : Bool := c.isAlphanum || c = '_' || c = '-'

/-- What may be left of a text behind one of the literals. -/
def behind (literals : List String) (text : List Char) : List (List Char) :=
  literals.filterMap (fun l => if l.toList.isPrefixOf text then some (text.drop l.length) else none)

theorem isIdChar_bounds {c : Char} (h : isIdChar c = true) :
    45 ≤ c.toNat ∧ c.toNat < 128 ∧ c ≠ '/' := by
  have hrange : ∀ low high : Char, decide (c.val ≥ low.val) = true → decide (c.val ≤ high.val) = true →
      low.toNat ≤ c.toNat ∧ c.toNat ≤ high.toNat := fun low high hlow hhigh =>
    ⟨UInt32.le_iff_toNat_le.mp (of_decide_eq_true hlow),
      UInt32.le_iff_toNat_le.mp (of_decide_eq_true hhigh)⟩
  have hslash : ∀ {low high : Char}, low.toNat ≤ c.toNat ∧ c.toNat ≤ high.toNat →
      47 < low.toNat → high.toNat < 128 → 45 ≤ c.toNat ∧ c.toNat < 128 ∧ c ≠ '/' := by
    intro low high hbounds hlow hhigh
    refine ⟨by omega, by omega, ?_⟩
    rintro rfl
    have hvalue : '/'.toNat = 47 := rfl
    omega
  rcases Bool.or_eq_true_iff.mp h with hword | hdash
  · rcases Bool.or_eq_true_iff.mp hword with halphanum | hunderscore
    · rcases Bool.or_eq_true_iff.mp halphanum with hletter | hdigit
      · rcases Bool.or_eq_true_iff.mp hletter with hupper | hlower
        · obtain ⟨hlow, hhigh⟩ := of_decide_eq_true hupper
          exact hslash (hrange 'A' 'Z' (decide_eq_true hlow) (decide_eq_true hhigh)) (by decide)
            (by decide)
        · obtain ⟨hlow, hhigh⟩ := Bool.and_eq_true_iff.mp hlower
          exact hslash (hrange 'a' 'z' hlow hhigh) (by decide) (by decide)
      · obtain ⟨hlow, hhigh⟩ := Bool.and_eq_true_iff.mp hdigit
        exact hslash (hrange '0' '9' hlow hhigh) (by decide) (by decide)
    · cases of_decide_eq_true hunderscore
      decide
  · cases of_decide_eq_true hdash
    decide

theorem isWhite_of_bounds {c : Char} (h : 33 ≤ c.toNat) (h' : c.toNat < 128) : isWhite c = false := by
  simp [isWhite]
  omega

theorem isIdChar_of_isDigit {c : Char} (h : c.isDigit = true) : isIdChar c = true := by
  simp [isIdChar, Char.isAlphanum, h]

theorem trim_eq_self {text : String} (h : ∀ c ∈ text.toList, isWhite c = false) : trim text = text := by
  unfold trim
  rw [Lines.trim_eq_self h, String.ofList_toList]

theorem split_of_not_mem {text : String} (h : '/' ∉ text.toList) : split text '/' = [text] := by
  unfold split
  rw [List.splitOn_eq_singleton h, List.map_singleton, String.ofList_toList]

theorem split_slash {front rest : String} (h : '/' ∉ front.toList) :
    split (front ++ "/" ++ rest) '/' = front :: split rest '/' := by
  have htext : (front ++ "/" ++ rest).toList = front.toList ++ '/' :: rest.toList := by
    rw [String.toList_append, String.toList_append, List.append_assoc]
    rfl
  unfold split
  rw [htext, Lines.splitOn_append_cons h, List.map_cons, String.ofList_toList]

/-! ## The runtime -/

/-- What the adapters read of a `URL`. -/
structure Url where
  protocol : String
  host : String
  hostname : String
  pathname : String
  searchParams : List (String × String)

/-- `url.searchParams.get(key)`. -/
def Url.get (url : Url) (key : String) : Option String :=
  (url.searchParams.find? (fun p => p.1 = key)).map (·.2)

structure Runtime where
  /-- `new URL(input, base)`; none where it throws. -/
  newURL : (input : String) → (base : Option String) → Option Url
  /-- `url.pathname = path`. -/
  setPathname : Url → String → Url
  /-- The `path` of `URL.parse(link)`, of the old interface; none where it throws. -/
  parsePath : String → Option (Option String)
  /-- `text.normalize("NFC")`. -/
  normalize : String → String

/-- What is thrown. -/
inductive Failure where
  | invalidUrl
  | unsupportedService (url : String)
  | badApiArgument
  | invalidVideoId (service : VideoService) (id : String)
  | other
  deriving DecidableEq, Repr

/-- An adapter, as far as links go. An id may be `undefined`. -/
structure Adapter where
  serviceId : VideoService
  canHandleURL : String → Except Failure Bool
  getVideoId : String → Except Failure (Option String)

structure Config where
  peertubeInstances : List String
  invidiousInstances : List String

section Adapters

variable (rt : Runtime) (config : Config)

/-- `new URL(link)`. -/
def Runtime.url (link : String) : Except Failure Url :=
  match rt.newURL link none with
  | none => .error .invalidUrl
  | some url => .ok url

theorem Runtime.url_eq_ok {rt : Runtime} {link : String} {url : Url}
    (h : rt.newURL link none = some url) : rt.url link = .ok url := by
  unfold Runtime.url
  rw [h]

/-! ## YouTube -/

def youtubeCanHandle (url : Url) : Bool :=
  if endsWith url.host "youtube.com" then
    (startsWith url.pathname "/watch" && (url.get "v").any (· ≠ "")) ||
    (startsWith url.pathname "/channel/" && url.pathname.length > 9) ||
    (startsWith url.pathname "/user/" && url.pathname.length > 6) ||
    (startsWith url.pathname "/c/" && url.pathname.length > 3) ||
    (startsWith url.pathname "/playlist" && (url.get "list").any (· ≠ "")) ||
    startsWith url.pathname "/shorts/" ||
    startsWith url.pathname "/live/" ||
    (startsWith url.pathname "/@" && url.pathname.length > 2) ||
    (url.host = "studio.youtube.com" && startsWith url.pathname "/video/")
  else if endsWith url.host "youtu.be" then url.pathname.length > 1
  else false

def youtubeVideoId (url : Url) : Except Failure (Option String) :=
  if endsWith url.host "youtu.be" then
    .ok (some (trim (String.ofList (url.pathname.toList.erase '/'))))
  else if startsWith url.pathname "/watch" then
    match url.get "v" with
    | none | some "" => .error .badApiArgument
    | some videoId => .ok (some (trim videoId))
  else .ok (split url.pathname '/')[2]?

def youtube : Adapter where
  serviceId := .youtube
  canHandleURL link := do
    let url ← rt.url link
    return youtubeCanHandle url
  getVideoId link := do
    let url ← rt.url link
    youtubeVideoId url

/-! ## Vimeo -/

/-- `/^\/\d+$/`. -/
def vimeoVideoPathRegex (path : String) : Bool :=
  match path.toList with
  | '/' :: digits => digits ≠ [] && digits.all Char.isDigit
  | _ => false

def lastSegment (path : String) : String := trim ((split path '/').getLastD "")

def vimeo : Adapter where
  serviceId := .vimeo
  canHandleURL link := do
    let url ← rt.url link
    let isVimeoHost := url.hostname = "vimeo.com" || endsWith url.hostname ".vimeo.com"
    return isVimeoHost && vimeoVideoPathRegex url.pathname
  getVideoId link := do
    let url ← rt.url link
    return some (lastSegment url.pathname)

/-! ## Google Drive, Reddit, Tubi and PeerTube -/

def googledrive : Adapter where
  serviceId := .googledrive
  canHandleURL link := do
    let url ← rt.url link
    return endsWith url.host "drive.google.com"
  getVideoId link := do
    let url ← rt.url link
    if startsWith url.pathname "/file/d/" then return (split url.pathname '/')[3]?
    else return some ((url.get "id").getD "")

/-- `/^\/r\/.+$/`, and `/\/comments\/.+/`. -/
def redditPathRegexes (path : String) : Bool :=
  (behind ["/r/"] path.toList).any (fun rest => rest ≠ [] && rest.all isAny) ||
    path.toList.tails.any (fun text =>
      (behind ["/comments/"] text).any (fun rest => rest.head?.any isAny))

def reddit : Adapter where
  serviceId := .reddit
  canHandleURL link := do
    let url ← rt.url link
    return endsWith url.host "reddit.com" && redditPathRegexes url.pathname
  getVideoId link :=
    let fragments := split link '/'
    match fragments.idxOf? "comments" with
    | none => .ok fragments[0]?
    | some i => .ok fragments[i + 1]?

/-- `https?:\/\/(?:www\.)?`, in front of a domain. -/
def webHosts (domain : String) : List String :=
  ["http://", "https://", "http://www.", "https://www."].map (· ++ domain)

/-- `(?:video|movies|tv-shows|oz\/videos|series)\/([0-9]+)`, behind the domain. -/
def tubiUrlRegex (link : String) : Bool :=
  let kinds := ["/video/", "/movies/", "/tv-shows/", "/oz/videos/", "/series/"]
  let literals := (webHosts "tubitv.com").flatMap (fun host => kinds.map (host ++ ·))
  link.toList.tails.any (fun text =>
    (behind literals text).any (fun rest => rest.head?.any Char.isDigit))

def tubi : Adapter where
  serviceId := .tubi
  canHandleURL link := .ok (tubiUrlRegex link)
  getVideoId link := do
    let url ← rt.url link
    let path := split url.pathname '/'
    if path[1]? = some "tv-shows" ∨ path[1]? = some "movies" then return path[2]?
    else if path[1]? = some "oz" then return path[3]?
    else throw .other

/-- `/^\/w\/\w+/`. -/
def peertubeWatchPathRegex (path : String) : Bool :=
  (behind ["/w/"] path.toList).any (fun rest => rest.head?.any isWordChar)

def peertube : Adapter where
  serviceId := .peertube
  canHandleURL link := do
    let url ← rt.url link
    return config.peertubeInstances.contains url.host && peertubeWatchPathRegex url.pathname
  getVideoId link := do
    let url ← rt.url link
    return some (url.host ++ ":" ++ lastSegment url.pathname)

/-! ## Direct links -/

/-- `/\/*\.(…)$/`. -/
def hasExtension (extensions : List String) (path : String) : Bool :=
  extensions.any (fun e => endsWith path ("." ++ e))

/-- The adapters that look for an extension, and keep the link for an id. -/
def linkAdapter (serviceId : VideoService) (extensions : List String) : Adapter where
  serviceId := serviceId
  canHandleURL link :=
    match rt.parsePath link with
    | none => .error .invalidUrl
    | some path =>
      .ok (hasExtension extensions
        (String.ofList ((path.getD "/").toList.takeWhile (fun c => c ≠ '?'))))
  getVideoId link := .ok (some link)

def directExtensions : List String :=
  ["mp3", "mp4", "mp4v", "mpg4", "webm", "flv", "mkv", "avi", "wmv", "qt", "mov", "ogv", "m4v", "h261",
    "h262", "h263", "h264", "ogg", "json"]

def hlsExtensions : List String := ["m3u", "m3u8"]

def dashExtensions : List String := ["mpd"]

def direct : Adapter := linkAdapter rt .direct directExtensions

def hls : Adapter := linkAdapter rt .hls hlsExtensions

def dash : Adapter := linkAdapter rt .dash dashExtensions

/-! ## Pluto -/

/-- `/https?:\/\/(www\.)?pluto\.tv\/[a-z]{2}\/on-demand\/(movies|series)\/(.*)\/?$/`. -/
def plutoUrlRegex (link : String) : Bool :=
  link.toList.tails.any (fun text => (behind (webHosts "pluto.tv/") text).any (fun rest =>
    (rest.take 2).length = 2 && (rest.take 2).all Char.isLower &&
      (behind ["/on-demand/movies/", "/on-demand/series/"] (rest.drop 2)).any (·.all isAny)))

/-- The first `[a-z0-9]+` behind the literal. -/
def slugBehind (literal path : String) : Option String :=
  path.toList.tails.findSome? (fun text => (behind [literal] text).findSome? (fun rest =>
    let slug := rest.takeWhile (fun c => c.isLower || c.isDigit)
    if slug = [] then none else some (String.ofList slug)))

/-- The type and the id of a series or a movie. -/
def plutoSeriesPathRegex (path : String) : Option (String × String) :=
  path.toList.tails.findSome? (fun text =>
    ["movies", "series"].findSome? (fun type =>
      (behind ["/" ++ type ++ "/"] text).findSome? (fun rest =>
        let slug := rest.takeWhile (fun c => c.isLower || c.isDigit)
        if slug = [] then none else some (type, String.ofList slug))))

def pluto : Adapter where
  serviceId := .pluto
  canHandleURL link := .ok (plutoUrlRegex link)
  getVideoId link := do
    let url ← rt.url link
    match plutoSeriesPathRegex url.pathname with
    | none => throw .other
    | some (type, id) =>
      let subid := (slugBehind "episode/" url.pathname).map ("/" ++ ·)
      return some (type ++ "/" ++ id ++ subid.getD "")

/-! ## Invidious -/

/-- `/^\/w\/[A-Za-z0-9_-]+$/`. -/
def invidiousShortWatchRe (path : String) : Bool :=
  (behind ["/w/"] path.toList).any (fun rest => rest ≠ [] && rest.all isIdChar)

def invidious : Adapter where
  serviceId := .invidious
  canHandleURL link :=
    match rt.newURL link none with
    | none => .ok false
    | some url =>
      .ok ((url.protocol = "http:" || url.protocol = "https:") &&
        (config.invidiousInstances.contains url.host ||
          config.invidiousInstances.contains url.hostname) &&
        if url.pathname = "/watch" then (url.get "v").isSome else invidiousShortWatchRe url.pathname)
  getVideoId link :=
    let found : Option String := do
      let url ← rt.newURL link none
      let id ←
        if url.pathname = "/watch" then url.get "v"
        else if invidiousShortWatchRe url.pathname then (split url.pathname '/').getLast?
        else none
      if id = "" then none else some (url.host ++ ":" ++ trim id)
    match found with
    | none => .error (.invalidVideoId .invidious link)
    | some id => .ok (some id)

/-! ## Odysee -/

/-- What `encodeURI` and `decodeURI` leave as it is. -/
def isReservedURI (c : Char) : Bool := ";/?:@&=+$,#".toList.contains c

def encodeURI (text : String) : String :=
  String.ofList (text.toList.flatMap (fun c =>
    if Instances.isUnreserved c || isReservedURI c then [c]
    else (String.utf8EncodeChar c).flatMap Instances.percentEncode))

def hexDigit? (c : Char) : Option Nat :=
  if c.isDigit then some (c.toNat - '0'.toNat)
  else if 'a' ≤ c ∧ c ≤ 'f' then some (c.toNat - 'a'.toNat + 10)
  else if 'A' ≤ c ∧ c ≤ 'F' then some (c.toNat - 'A'.toNat + 10)
  else none

/-- An escaped byte, and the text behind it. -/
def escaped? : List Char → Option (Nat × List Char)
  | '%' :: a :: b :: rest => do
    let high ← hexDigit? a
    let low ← hexDigit? b
    return (16 * high + low, rest)
  | _ => none

/-- So many bytes that go on with a character. -/
def continued? : Nat → Nat → List Char → Option (Nat × List Char)
  | 0, code, text => some (code, text)
  | n + 1, code, text => do
    let (byte, rest) ← escaped? text
    if 0x80 ≤ byte ∧ byte < 0xC0 then continued? n (64 * code + (byte - 0x80)) rest else none

/-- A character that is written in escaped bytes. -/
def escapedChar? (text : List Char) : Option (Char × List Char) := do
  let (byte, rest) ← escaped? text
  let (n, code, least) ←
    if byte < 0x80 then some (0, byte, 0)
    else if 0xC0 ≤ byte ∧ byte < 0xE0 then some (1, byte - 0xC0, 0x80)
    else if 0xE0 ≤ byte ∧ byte < 0xF0 then some (2, byte - 0xE0, 0x800)
    else if 0xF0 ≤ byte ∧ byte < 0xF8 then some (3, byte - 0xF0, 0x10000)
    else none
  let (code, rest) ← continued? n code rest
  if least ≤ code ∧ code.isValidChar then some (Char.ofNat code, rest) else none

/-- Every step takes a character at least. -/
def decodeFrom : Nat → List Char → Option (List Char)
  | 0, _ | _, [] => some []
  | fuel + 1, c :: text =>
    if c = '%' then do
      let (decoded, rest) ← escapedChar? (c :: text)
      let tail ← decodeFrom fuel rest
      if isReservedURI decoded then return c :: text.take 2 ++ tail else return decoded :: tail
    else (decodeFrom fuel text).map (c :: ·)

def decodeURI (text : String) : Option String :=
  (decodeFrom text.length text.toList).map String.ofList

/-- `normalizeOdyseeUrl`; none where it throws. -/
def normalizeOdyseeUrl (input : String) : Option Url := do
  let url ← rt.newURL input (some "https://odysee.com")
  let decodedPath ← decodeURI url.pathname
  return rt.setPathname url (encodeURI (rt.normalize decodedPath))

/-- `/(?:^|\.)domain$/i`. -/
def domainRegex (domain host : String) : Bool :=
  let host := String.ofList (host.toList.map Char.toLower)
  host = domain || endsWith host ("." ++ domain)

def isHostUnderDomain (host domain : String) : Bool :=
  domainRegex domain (if endsWith host "." then String.ofList host.toList.dropLast else host)

/-- `name#id`, of `name:id`. -/
def claim (part : String) : String :=
  let pieces := split part ':'
  pieces.headD "" ++ match pieces[1]? with
    | none | some "" => ""
    | some id => "#" ++ id

def parseOdyseeUrlToLbry (uriOrUrl : String) : Option String :=
  if uriOrUrl = "" then none
  else if startsWith uriOrUrl "lbry://" then some uriOrUrl
  else do
    let url ← normalizeOdyseeUrl rt uriOrUrl
    if domainRegex "odysee.com" url.hostname = false then none
    else
      let decoded := rt.normalize (← decodeURI url.pathname)
      match (split decoded '/').filter (· ≠ "") with
      | [] => none
      | first :: rest =>
        if startsWith first "@" then
          some ("lbry://" ++ claim first ++ (rest.head?.map (fun part => "/" ++ claim part)).getD "")
        else if rest = [] ∧ ':' ∈ first.toList then some ("lbry://" ++ claim first)
        else none

def odysee : Adapter where
  serviceId := .odysee
  canHandleURL link :=
    if link = "" then .ok false
    else
      match normalizeOdyseeUrl rt link with
      | none => .ok false
      | some url =>
        .ok (domainRegex "odysee.com" url.hostname || domainRegex "odycdn.com" url.hostname)
  getVideoId link :=
    let found : Option String := do
      let url ← rt.newURL link none
      if isHostUnderDomain url.hostname "odycdn.com" then some link
      else if isHostUnderDomain url.hostname "odysee.com" then parseOdyseeUrlToLbry rt link
      else none
    match found with
    | none => .error (.invalidVideoId .odysee link)
    | some id => .ok (some id)

/-! ## The adapters -/

/-- `initExtractor`, with all services enabled. -/
def adapters : List Adapter :=
  [youtube rt, vimeo rt, googledrive rt, reddit rt, tubi rt, peertube rt config, direct rt, hls rt,
    dash rt, pluto rt, invidious rt config, odysee rt]

/-- `adapters.find(adapter => adapter.canHandleURL(url))`. -/
def find (url : String) : List Adapter → Except Failure Adapter
  | [] => .error (.unsupportedService url)
  | adapter :: rest => do
    if ← adapter.canHandleURL url then return adapter else find url rest

def getServiceAdapterForURL (url : String) : Except Failure Adapter := find url (adapters rt config)

/-- `!!new URL(str).host`. -/
def isURL (str : String) : Bool := (rt.newURL str none).any (fun url => url.host ≠ "")

end Adapters

end OpenTogetherTube.Server.Adapters
