import Mathlib.Data.List.DropRight

/-!
# Which host a URL names

The parser of the URL standard, as far as it decides which host an `https` URL names: the text is
cleaned, slashes of both kinds behind the scheme are skipped, the authority ends at the next slash,
question mark or hash sign, what stands before its last at sign are credentials, and a colon that is
not in brackets begins the port. `hostParser` reads the host itself.

A host that is spliced into a text decides where the text leads, as long as what follows begins with
a slash: `parse_splice` says what of the host counts.
-/

namespace OpenTogetherTube.Lib.Url

/-- The host of a URL, and its port unless it is the default one. -/
structure Origin where
  hostname : String
  port : Option Nat
  deriving DecidableEq, Repr

/-- `url.host`. -/
def Origin.host (origin : Origin) : String :=
  match origin.port with
  | none => origin.hostname
  | some port => origin.hostname ++ ":" ++ toString port

/-! ## The parser -/

/-- A C0 control, or a space. -/
def isC0OrSpace (c : Char) : Bool := c.toNat ≤ 0x20

def isTabOrNewline (c : Char) : Bool := c = '\t' || c = '\n' || c = '\r'

def isSlash (c : Char) : Bool := c = '/' || c = '\\'

def endsAuthority (c : Char) : Bool := c = '/' || c = '\\' || c = '?' || c = '#'

/-- Tabs and newlines are removed everywhere. -/
def clean (text : List Char) : List Char := text.filter (fun c => !isTabOrNewline c)

/-- The text without controls and spaces around it. -/
def strip (text : List Char) : List Char := (text.dropWhile isC0OrSpace).rdropWhile isC0OrSpace

/-- The authority of what follows the scheme. -/
def authority (text : List Char) : List Char :=
  (text.dropWhile isSlash).takeWhile (fun c => !endsAuthority c)

/-- What stands before the first colon outside of brackets, and what behind it. -/
def splitPort : (inside : Bool) → List Char → List Char × Option (List Char)
  | _, [] => ([], none)
  | inside, c :: cs =>
    if c = ':' ∧ inside = false then ([], some cs)
    else
      let r := splitPort (c = '[' || (inside && c ≠ ']')) cs
      (c :: r.1, r.2)

/-- The number that the digits write. -/
def ofDigits (digits : List Char) : Nat :=
  digits.foldl (fun n c => 10 * n + (c.toNat - '0'.toNat)) 0

/-- The port, none if it is left out or the default one. -/
def readPort (digits : List Char) : Option (Option Nat) :=
  if digits.all Char.isDigit ∧ ofDigits digits ≤ 65535 then
    some (if digits = [] ∨ ofDigits digits = 443 then none else some (ofDigits digits))
  else none

section Parse

variable (hostParser : String → Option String)

/-- Host and port of an authority. -/
def readAuthority (text : List Char) : Option Origin :=
  let (host, port) := splitPort false (text.rtakeWhile (fun c => c ≠ '@'))
  if host = [] then none
  else
    (hostParser (String.ofList host)).bind (fun hostname =>
      match port with
      | none => some ⟨hostname, none⟩
      | some digits => (readPort digits).map (fun port => ⟨hostname, port⟩))

/-- `new URL(text)`, of a text with the scheme `https`. -/
def parse (text : String) : Option Origin :=
  let text := clean (strip text.toList)
  if text.take 6 = ['h', 't', 't', 'p', 's', ':'] then
    readAuthority hostParser (authority (text.drop 6))
  else none

end Parse

/-! ## A host that is spliced in -/

/-- The authority of `https://`, the host, and a path that begins with the segment. A host of
nothing but slashes leaves it to the segment. -/
def splicedAuthority (host segment : List Char) : List Char :=
  if (clean host).dropWhile isSlash = [] then segment else authority (clean host)

theorem authority_append_of_slashes {host rest : List Char} (h : host.dropWhile isSlash = []) :
    authority (host ++ rest) = authority rest := by
  unfold authority
  rw [List.dropWhile_append, h]
  rfl

theorem authority_append_of_host {host rest : List Char} {c : Char}
    (h : host.dropWhile isSlash ≠ []) (hc : endsAuthority c = true) :
    authority (host ++ c :: rest) = authority host := by
  unfold authority
  have hne : (host.dropWhile isSlash).isEmpty = false := by simpa using h
  have hstop : (c :: rest).takeWhile (fun c => !endsAuthority c) = [] :=
    List.takeWhile_cons_of_neg (by simp [hc])
  rw [List.dropWhile_append, hne, if_neg (by simp), List.takeWhile_append, hstop, List.append_nil]
  split
  · next hall => exact ((List.takeWhile_prefix _).eq_of_length hall).symm
  · rfl

/-- A text whose first character stays is stripped behind its last one that does. -/
theorem strip_append {text rest : List Char} {a b : Char} (ha : isC0OrSpace a = false)
    (hb : isC0OrSpace b = false) :
    strip (a :: text ++ b :: rest) = a :: text ++ b :: rest.rdropWhile isC0OrSpace := by
  have hreverse : (a :: text ++ b :: rest).reverse =
      rest.reverse ++ b :: (a :: text).reverse := by simp
  have hdrop : (a :: text ++ b :: rest).dropWhile isC0OrSpace = a :: text ++ b :: rest := by
    rw [List.cons_append, List.dropWhile_cons_of_neg (by simp [ha])]
  unfold strip List.rdropWhile
  rw [hdrop, hreverse, List.dropWhile_append]
  split
  · next hnone =>
    rw [List.isEmpty_iff.mp hnone, List.dropWhile_cons_of_neg (by simp [hb])]
    simp
  · simp

theorem clean_append (text rest : List Char) : clean (text ++ rest) = clean text ++ clean rest :=
  List.filter_append ..

theorem clean_eq_self {text : List Char} (h : ∀ c ∈ text, isTabOrNewline c = false) :
    clean text = text :=
  List.filter_eq_self.mpr (fun c hc => by simp [h c hc])

/-- A text without slashes, and without what else ends an authority, is one. -/
theorem authority_eq_self {text : List Char} (h : ∀ c ∈ text, endsAuthority c = false) :
    text.dropWhile isSlash = text ∧ authority text = text := by
  have hslash : ∀ c ∈ text, isSlash c = false := by
    intro c hc
    have hends := h c hc
    simp only [endsAuthority, Bool.or_eq_false_iff] at hends
    simp [isSlash, hends.1.1.1, hends.1.1.2]
  have hdrop : text.dropWhile isSlash = text := by
    cases text with
    | nil => rfl
    | cons c text => exact List.dropWhile_cons_of_neg (by simp [hslash c List.mem_cons_self])
  refine ⟨hdrop, ?_⟩
  unfold authority
  rw [hdrop]
  exact List.takeWhile_eq_self_iff.mpr (fun c hc => by simp [h c hc])

/-- **What of a host counts**, when it is spliced into the text of a URL. -/
theorem parse_splice (hostParser : String → Option String) (host segment rest : String)
    (hne : segment.toList ≠ [])
    (hplain : ∀ c ∈ segment.toList, isTabOrNewline c = false ∧ endsAuthority c = false) :
    parse hostParser ("https://" ++ host ++ "/" ++ segment ++ "/" ++ rest) =
      readAuthority hostParser (splicedAuthority host.toList segment.toList) := by
  have htext : ("https://" ++ host ++ "/" ++ segment ++ "/" ++ rest).toList =
      'h' :: (['t', 't', 'p', 's', ':', '/', '/'] ++ host.toList ++ '/' :: segment.toList) ++
        '/' :: rest.toList := by
    simp
  have hslash : ∀ text, clean ('/' :: text) = '/' :: clean text := fun _ => rfl
  have hclean : ∀ rest, clean ('h' :: (['t', 't', 'p', 's', ':', '/', '/'] ++ host.toList ++
      '/' :: segment.toList) ++ '/' :: rest) = ['h', 't', 't', 'p', 's', ':'] ++
        '/' :: '/' :: (clean host.toList ++ '/' :: (segment.toList ++ '/' :: clean rest)) := by
    intro rest
    show ['h', 't', 't', 'p', 's', ':'] ++
      '/' :: '/' :: clean (host.toList ++ '/' :: segment.toList ++ '/' :: rest) = _
    rw [clean_append, clean_append, hslash, hslash, clean_eq_self (fun c hc => (hplain c hc).1),
      List.append_assoc]
    rfl
  have hauthority : ∀ rest, authority
      (clean host.toList ++ '/' :: (segment.toList ++ '/' :: rest)) =
        splicedAuthority host.toList segment.toList := by
    intro rest
    obtain ⟨hdrop, hself⟩ := authority_eq_self (fun c hc => (hplain c hc).2)
    unfold splicedAuthority
    split
    · next hslashes =>
      have hfirst : segment.toList.dropWhile isSlash ≠ [] := by rwa [hdrop]
      have hskip : ∀ text, authority ('/' :: text) = authority text := fun _ => rfl
      rw [authority_append_of_slashes hslashes, hskip, authority_append_of_host hfirst rfl, hself]
    · next hhost => exact authority_append_of_host hhost rfl
  unfold parse
  dsimp only
  rw [htext, strip_append rfl rfl, hclean]
  exact (if_pos rfl).trans (congrArg (readAuthority hostParser) (hauthority _))

/-! ## Plain hosts -/

theorem splitPort_of_not_mem {inside : Bool} {text : List Char} (h : ':' ∉ text) :
    splitPort inside text = (text, none) := by
  induction text generalizing inside with
  | nil => rfl
  | cons c text ih =>
    have hc : c ≠ ':' := fun heq => h (heq ▸ List.mem_cons_self)
    have htext : ':' ∉ text := fun hmem => h (List.mem_cons_of_mem _ hmem)
    unfold splitPort
    rw [if_neg (fun hcolon => hc hcolon.1), ih htext]

/-- A host without delimiters is read as it is. -/
theorem readAuthority_plain (hostParser : String → Option String) {host : List Char}
    (hne : host ≠ []) (hat : '@' ∉ host) (hcolon : ':' ∉ host) :
    readAuthority hostParser host =
      (hostParser (String.ofList host)).map (fun hostname => ⟨hostname, none⟩) := by
  have hlast : host.rtakeWhile (fun c => c ≠ '@') = host := by
    refine List.rtakeWhile_eq_self_iff.mpr (fun c hc => ?_)
    exact decide_eq_true (fun heq => hat (heq ▸ hc))
  unfold readAuthority
  rw [hlast, splitPort_of_not_mem hcolon]
  dsimp only
  rw [if_neg hne]
  cases hostParser (String.ofList host) <;> rfl

end OpenTogetherTube.Lib.Url
