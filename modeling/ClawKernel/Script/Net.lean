import ClawKernel.Lib.Addresses
import ClawKernel.Lib.Utf8
import Mathlib.Data.List.Infix

/-! The network bridge of a script: what it checks of a URL, and the requests that a call causes
when the client follows redirects by itself. Parsing a URL and writing an IPv6 address are the
client library's; servers answer as they like.
-/
namespace ClawKernel.Script.Net
open Lib.Addresses

inductive Host where
  | domain (name : String)
  | ipv4 (addr : Ipv4Addr)
  | ipv6 (addr : Ipv6Addr)
  deriving DecidableEq, Repr

structure Url where
  scheme : String
  host : Option Host
  port : Option Nat
  path : String
  deriving DecidableEq, Repr

def Url.portOrKnownDefault (url : Url) : Option Nat :=
  url.port.or (match url.scheme with
    | "http" => some 80
    | "ws" => some 80
    | "https" => some 443
    | "wss" => some 443
    | "ftp" => some 21
    | _ => none)

/-- What the client library does: `parse` with its error, and the text of an IPv6 address. -/
structure UrlLibrary where
  parse : String → Except String Url
  writeIpv6 : Ipv6Addr → String

def UrlLibrary.hostStr (lib : UrlLibrary) : Host → String
  | .domain name => name
  | .ipv4 addr => String.ofList addr.chars
  | .ipv6 addr => "[" ++ lib.writeIpv6 addr ++ "]"

structure NetBridge where
  allowedDomains : List String
  allowedPorts : List Nat
  allowLoopback : Bool
  deriving DecidableEq, Repr

namespace NetBridge

def new : NetBridge := ⟨[],[80,443],false⟩

def withDomains (domains : List String) : NetBridge := { new with allowedDomains := domains }

def withPorts (bridge : NetBridge) (ports : List Nat) : NetBridge := { bridge with allowedPorts := ports }

def withLoopback (bridge : NetBridge) (allow : Bool) : NetBridge := { bridge with allowLoopback := allow }

end NetBridge

def isLoopback (host : String) : Bool :=
  if host = "localhost" ∨ host = "127.0.0.1" ∨ host = "::1" then true
  else
    match readIpAddr host.toList with
    | some ip => ip.isLoopback
    | none => false

/-- Exact match or subdomain. -/
def listed (bridge : NetBridge) (host : String) : Bool :=
  bridge.allowedDomains.any (fun domain => host = domain ∨ ("." ++ domain).toList <:+ host.toList)

/-- `{:?}` of the set, in the order in which it lists its members. -/
def debugPorts (ports : List Nat) : String := "\x7b" ++ ", ".intercalate (ports.map toString) ++ "\x7d"

section Requests
variable (lib : UrlLibrary) (bridge : NetBridge)

def checkHost (url host : String) : Except String Unit :=
  if isLoopback host ∧ bridge.allowLoopback = false then
    .error ("Permission denied: loopback access is not allowed (host: '" ++ host ++ "')")
  else if bridge.allowLoopback = false ∨ isLoopback host = false then
    if bridge.allowedDomains = [] then
      .error ("Permission denied: no network access allowed (URL: '" ++ url ++ "')")
    else if listed bridge host then .ok ()
    else .error ("Permission denied: domain '" ++ host ++ "' is not in the allowlist")
  else .ok ()

def checkPort (url : String) (parsed : Url) : Except String Unit :=
  match parsed.portOrKnownDefault with
  | none => .error ("URL '" ++ url ++ "' has no port")
  | some port =>
    if port ∈ bridge.allowedPorts then .ok ()
    else .error ("Permission denied: port " ++ toString port ++ " is not allowed (allowed: " ++
      debugPorts bridge.allowedPorts ++ ")")

def validateUrl (url : String) : Except String Url :=
  match lib.parse url with
  | .error e => .error ("Invalid URL '" ++ url ++ "': " ++ e)
  | .ok parsed =>
    if parsed.scheme ≠ "http" ∧ parsed.scheme ≠ "https" then
      .error ("Unsupported URL scheme '" ++ parsed.scheme ++ "': only http and https are allowed")
    else
      match parsed.host with
      | none => .error ("URL '" ++ url ++ "' has no host")
      | some host => do
        checkHost bridge url (lib.hostStr host)
        checkPort bridge url parsed
        return parsed

/-- The value of a header is `none` where it has no text. -/
structure Response where
  status : Nat
  headers : List (String × Option String)
  body : List UInt8

structure HttpResponse where
  status : Nat
  headers : List (String × String)
  body : String
  deriving DecidableEq, Repr

def maxResponseBodySize : Nat := 4 * 1024 * 1024

def convertResponse (response : Response) : Except String HttpResponse :=
  if response.body.length > maxResponseBodySize then
    .error ("Response body too large: " ++ toString response.body.length ++ " bytes (max " ++
      toString maxResponseBodySize ++ " bytes)")
  else
    .ok ⟨response.status,response.headers.filterMap (fun header => header.2.map (fun value => (header.1,value))),
      String.ofList (Lib.Utf8.lossy response.body)⟩

/-- A redirect has the URL that its `Location` leads to. -/
inductive Answer where
  | final (response : Response)
  | redirect (location : Url)
  | failed (message : String)

/-- The client follows redirects to `http` and `https` URLs. -/
def sendable (url : Url) : Bool := (url.scheme = "http" ∨ url.scheme = "https") ∧ url.host.isSome

/-- The requests that are sent from this one on, with `left` redirects left to follow; `answer`
is what the server of a URL answers to the request of a number. -/
def send (answer : Nat → Url → Answer) (request : Nat) : Nat → Url → List Url × Except String Response
  | left, url =>
    match answer request url with
    | .final response => ([url],.ok response)
    | .failed message => ([url],.error message)
    | .redirect location =>
      match left with
      | 0 => ([url],.error "too many redirects")
      | left + 1 =>
        if sendable location then
          (url :: (send answer (request + 1) left location).1,(send answer (request + 1) left location).2)
        else ([url],.error "URL scheme is not allowed")

def maxRedirects : Nat := 10

inductive Call where
  | get (url : String) (headers : List (String × String))
  | post (url body : String) (headers : List (String × String))
  deriving DecidableEq, Repr

def Call.url : Call → String
  | .get url _ => url
  | .post url _ _ => url

/-- `get` and `post`: the requests they cause, and what they return. What a server answers may
depend on the call. -/
def perform (answer : Call → Nat → Url → Answer) (call : Call) : List Url × Except String HttpResponse :=
  match validateUrl lib bridge call.url with
  | .error e => ([],.error e)
  | .ok validated =>
    let sent := send (answer call) 0 maxRedirects validated
    (sent.1,(sent.2.mapError ("HTTP request failed: " ++ ·)).bind convertResponse)

end Requests

def isLocalMapped : List Nat → Bool
  | [0,0,0,0,0,0,0,0] => true
  | [0,0,0,0,0,65535,high,low] => high / 256 = 127 ∨ high = 0 ∧ low = 0
  | _ => false

/-- An address of the machine itself: a loopback address, the unspecified one, or an IPv4
address of these kinds as an IPv6 address. -/
def isLocalAddr : IpAddr → Bool
  | .v4 addr => addr.isLoopback ∨ addr = .unspecified
  | .v6 addr => addr.isLoopback ∨ isLocalMapped addr.segments

/-- `localhost` and the names under it, with or without the dot of the root. -/
def isLocalName (name : String) : Bool :=
  name = "localhost" ∨ name = "localhost." ∨ ".localhost".toList <:+ name.toList ∨ ".localhost.".toList <:+ name.toList

def Host.isLocal : Host → Bool
  | .domain name => isLocalName name ∨ (readIpAddr name.toList).any isLocalAddr
  | .ipv4 addr => isLocalAddr (.v4 addr)
  | .ipv6 addr => isLocalAddr (.v6 addr)

section Confinement
variable (lib : UrlLibrary) (bridge : NetBridge)

/-- The configuration allows the port, and the host: a local one if loopback is allowed, any
other if it is listed. -/
def Permits (url : Url) : Prop :=
  ∃ host port, url.host = some host ∧ url.portOrKnownDefault = some port ∧ port ∈ bridge.allowedPorts ∧
    if host.isLocal = true then bridge.allowLoopback = true else listed bridge (lib.hostStr host) = true

/-- A local host in a spelling that `is_loopback` does not know. -/
def Hidden (host : Host) : Prop := host.isLocal = true ∧ isLoopback (lib.hostStr host) = false

/-- The checks of `validate_url` accept the URL, but for a hidden host, which needs loopback to
be allowed. -/
def Confined (url : Url) : Prop :=
  ∃ host text, url.host = some host ∧ checkPort bridge text url = .ok () ∧
    (Hidden lib host ∧ bridge.allowLoopback = true ∨ ¬Hidden lib host ∧ checkHost bridge text (lib.hostStr host) = .ok ())

/-- Where the servers redirect the client to. -/
def redirects (answer : Nat → Url → Answer) (request : Nat) : Nat → Url → List Url
  | 0, _ => []
  | left + 1, url =>
    match answer request url with
    | .redirect location =>
      if sendable location then location :: redirects answer (request + 1) left location else []
    | _ => []

theorem send_requests (answer : Nat → Url → Answer) (request left : Nat) (url : Url) :
    (send answer request left url).1 = url :: redirects answer request left url := by
  induction left generalizing request url with
  | zero =>
    rw [send,redirects]
    split
    · rfl
    · rfl
    · rfl
  | succ left ih =>
    rw [send,redirects]
    cases answered : answer request url with
    | final response => rfl
    | failed message => rfl
    | redirect location =>
      simp only
      split
      · rw [ih]
      · rfl

theorem readIpAddr_name : readIpAddr "localhost".toList = none ∧
    readIpAddr "127.0.0.1".toList = some (.v4 ⟨127,0,0,1⟩) ∧ readIpAddr "::1".toList = some (.v6 ⟨[0,0,0,0,0,0,0,1]⟩) := by
  decide +kernel

theorem loopback_local (ip : IpAddr) (loopback : ip.isLoopback = true) : isLocalAddr ip = true := by
  cases ip with
  | v4 addr => exact decide_eq_true (Or.inl loopback)
  | v6 addr => exact decide_eq_true (Or.inl loopback)

/-- What a text that counts as loopback is. -/
theorem isLoopback_iff (text : String) :
    isLoopback text = true ↔ text = "localhost" ∨ ∃ ip, readIpAddr text.toList = some ip ∧ ip.isLoopback = true := by
  unfold isLoopback
  split
  · rename_i name
    refine iff_of_true rfl ?_
    rcases name with name | name | name
    · exact Or.inl name
    · exact Or.inr ⟨_,name ▸ readIpAddr_name.2.1,rfl⟩
    · exact Or.inr ⟨_,name ▸ readIpAddr_name.2.2,rfl⟩
  · rename_i other
    rw [or_iff_right (fun name => other (Or.inl name))]
    split
    · rename_i ip found
      rw [found]
      exact ⟨fun loopback => ⟨ip,rfl,loopback⟩,fun ⟨_,same,loopback⟩ => Option.some_inj.mp same ▸ loopback⟩
    · rename_i none
      rw [none]
      exact iff_of_false Bool.false_ne_true (fun ⟨_,clash,_⟩ => by cases clash)

theorem isLoopback_local (host : Host) (loopback : isLoopback (lib.hostStr host) = true) : host.isLocal = true := by
  rw [isLoopback_iff] at loopback
  cases host with
  | domain name =>
    apply decide_eq_true
    rcases loopback with same | ⟨ip,found,loopback⟩
    · exact Or.inl (decide_eq_true (Or.inl same))
    · right
      rw [show readIpAddr name.toList = some ip from found]
      exact loopback_local ip loopback
  | ipv4 addr =>
    have read : readIpAddr (lib.hostStr (.ipv4 addr)).toList = some (.v4 addr) := by
      rw [UrlLibrary.hostStr,String.toList_ofList]
      exact readIpAddr_chars addr
    rcases loopback with same | ⟨ip,found,loopback⟩
    · rw [same,readIpAddr_name.1] at read
      cases read
    · rw [read] at found
      cases found
      exact loopback_local (.v4 addr) loopback
  | ipv6 addr =>
    have text : (lib.hostStr (.ipv6 addr)).toList = '[' :: ((lib.writeIpv6 addr).toList ++ [']']) := by
      simp [UrlLibrary.hostStr]
    have none : readIpAddr (lib.hostStr (.ipv6 addr)).toList = none := by
      rw [text]
      exact readIpAddr_starts '[' _ rfl rfl (by decide) (by decide)
    rcases loopback with same | ⟨ip,found,_⟩
    · rw [same] at text
      cases text
    · rw [none] at found
      cases found

theorem listed_nonempty (host : String) (found : listed bridge host = true) : bridge.allowedDomains ≠ [] := by
  intro none
  rw [listed,none] at found
  cases found

theorem checkHost_iff (text host : String) :
    checkHost bridge text host = .ok () ↔
      if isLoopback host = true then bridge.allowLoopback = true else listed bridge host = true := by
  unfold checkHost
  cases isLoopback host with
  | true =>
    cases bridge.allowLoopback with
    | true => exact iff_of_true rfl rfl
    | false => exact iff_of_false (fun clash => by cases clash) Bool.false_ne_true
  | false =>
    rw [if_neg (fun both => Bool.false_ne_true both.1),if_pos (Or.inr rfl),if_neg Bool.false_ne_true]
    split
    · rename_i none
      exact iff_of_false (fun clash => by cases clash) (fun found => listed_nonempty bridge host found none)
    · split
      · exact iff_of_true rfl ‹_›
      · exact iff_of_false (fun clash => by cases clash) ‹_›

theorem checkPort_iff (text : String) (url : Url) :
    checkPort bridge text url = .ok () ↔ ∃ port, url.portOrKnownDefault = some port ∧ port ∈ bridge.allowedPorts := by
  unfold checkPort
  cases url.portOrKnownDefault with
  | none => exact iff_of_false (fun clash => by cases clash) (fun ⟨_,clash,_⟩ => by cases clash)
  | some port =>
    by_cases allowed : port ∈ bridge.allowedPorts
    · simp only [if_pos allowed]
      exact iff_of_true trivial ⟨port,rfl,allowed⟩
    · simp only [if_neg allowed]
      exact iff_of_false (fun clash => by cases clash)
        (fun ⟨_,same,other⟩ => allowed (Option.some_inj.mp same ▸ other))

/-- The two ways to say what is allowed of a host. -/
theorem host_permitted_iff (text : String) (host : Host) :
    (if host.isLocal = true then bridge.allowLoopback = true else listed bridge (lib.hostStr host) = true) ↔
      Hidden lib host ∧ bridge.allowLoopback = true ∨
        ¬Hidden lib host ∧ checkHost bridge text (lib.hostStr host) = .ok () := by
  rw [checkHost_iff]
  unfold Hidden
  cases loopback : isLoopback (lib.hostStr host) with
  | true =>
    have own := isLoopback_local lib host loopback
    rw [if_pos own,if_pos rfl]
    simp
  | false =>
    rw [if_neg Bool.false_ne_true,and_iff_left rfl]
    split
    · rename_i own
      simp [own]
    · rename_i other
      simp [other]

theorem permits_iff (url : Url) : Permits lib bridge url ↔ Confined lib bridge url := by
  constructor
  · rintro ⟨host,port,found,known,allowed,permitted⟩
    exact ⟨host,"",found,(checkPort_iff bridge "" url).mpr ⟨port,known,allowed⟩,
      (host_permitted_iff lib bridge "" host).mp permitted⟩
  · rintro ⟨host,text,found,checked,confined⟩
    obtain ⟨port,known,allowed⟩ := (checkPort_iff bridge text url).mp checked
    exact ⟨host,port,found,known,allowed,(host_permitted_iff lib bridge text host).mpr confined⟩

theorem validateUrl_checks (url : String) (validated : Url) (valid : validateUrl lib bridge url = .ok validated) :
    ∃ host, validated.host = some host ∧ checkHost bridge url (lib.hostStr host) = .ok () ∧
      checkPort bridge url validated = .ok () := by
  unfold validateUrl at valid
  cases parsed : lib.parse url with
  | error e =>
    rw [parsed] at valid
    cases valid
  | ok given =>
    simp only [parsed] at valid
    split at valid
    · cases valid
    · cases hosted : given.host with
      | none =>
        simp only [hosted] at valid
        cases valid
      | some host =>
        simp only [hosted] at valid
        cases first : checkHost bridge url (lib.hostStr host) with
        | error e =>
          rw [first] at valid
          cases valid
        | ok _ =>
          cases second : checkPort bridge url given with
          | error e =>
            rw [first,second] at valid
            cases valid
          | ok _ =>
            rw [first,second] at valid
            cases valid
            exact ⟨host,hosted,first,second⟩

/-- A URL that has been validated is permitted unless its host is a hidden one. -/
theorem validated_permitted_iff (url : String) (validated : Url) (valid : validateUrl lib bridge url = .ok validated) :
    Permits lib bridge validated ↔
      ∀ host, validated.host = some host → Hidden lib host → bridge.allowLoopback = true := by
  obtain ⟨host,found,hostChecked,portChecked⟩ := validateUrl_checks lib bridge url validated valid
  rw [permits_iff]
  constructor
  · rintro ⟨other,_,found',_,confined⟩ host' same hidden
    obtain rfl := Option.some_inj.mp (found'.symm.trans same)
    rcases confined with ⟨_,allowed⟩ | ⟨open',_⟩
    · exact allowed
    · exact absurd hidden open'
  · intro allowed
    refine ⟨host,url,found,portChecked,?_⟩
    by_cases hidden : Hidden lib host
    · exact Or.inl ⟨hidden,allowed host found hidden⟩
    · exact Or.inr ⟨hidden,hostChecked⟩

/-- Every request that a call causes is permitted exactly if a hidden host is asked for only
where loopback is allowed, and the servers redirect only to what the checks accept. -/
theorem requests_permitted_iff (answer : Call → Nat → Url → Answer) (call : Call) :
    (∀ url ∈ (perform lib bridge answer call).1, Permits lib bridge url) ↔
      ∀ validated, validateUrl lib bridge call.url = .ok validated →
        (∀ host, validated.host = some host → Hidden lib host → bridge.allowLoopback = true) ∧
          ∀ location ∈ redirects (answer call) 0 maxRedirects validated, Confined lib bridge location := by
  unfold perform
  cases valid : validateUrl lib bridge call.url with
  | error e => exact iff_of_true (List.forall_mem_nil _) (fun validated clash => by cases clash)
  | ok first =>
    rw [send_requests,List.forall_mem_cons,validated_permitted_iff lib bridge call.url first valid]
    have later := forall₂_congr
      (fun (url : Url) (_ : url ∈ redirects (answer call) 0 maxRedirects first) => permits_iff lib bridge url)
    rw [later]
    constructor
    · rintro both validated same
      cases same
      exact both
    · exact fun all => all first rfl

end Confinement

/-- A library that knows three URLs. -/
def threeUrls : UrlLibrary where
  parse := fun text =>
    if text = "https://api.example.com/" then .ok ⟨"https",some (.domain "api.example.com"),none,"/"⟩
    else if text = "http://[::1]/" then .ok ⟨"http",some (.ipv6 ⟨[0,0,0,0,0,0,0,1]⟩),none,"/"⟩
    else .error "relative URL without a base"
  writeIpv6 := fun _ => "::1"

def toLoopback : Answer := .redirect ⟨"http",some (.ipv4 .localhost),none,"/"⟩

/-- With loopback forbidden, an allowed server redirects to it, and a bracketed address on the
list is not taken for loopback. -/
theorem loopback_reached :
    (perform threeUrls (.withDomains ["api.example.com"]) (fun _ _ _ => toLoopback)
        (.get "https://api.example.com/" [])).1[1]? = some ⟨"http",some (.ipv4 .localhost),none,"/"⟩ ∧
      ¬Permits threeUrls (.withDomains ["api.example.com"]) ⟨"http",some (.ipv4 .localhost),none,"/"⟩ ∧
      (perform threeUrls (.withDomains ["[::1]"]) (fun _ _ _ => .failed "refused") (.get "http://[::1]/" [])).1 =
        [⟨"http",some (.ipv6 ⟨[0,0,0,0,0,0,0,1]⟩),none,"/"⟩] ∧
      ¬Permits threeUrls (.withDomains ["[::1]"]) ⟨"http",some (.ipv6 ⟨[0,0,0,0,0,0,0,1]⟩),none,"/"⟩ := by
  refine ⟨by decide +kernel,?_,by decide +kernel,?_⟩
  · rintro ⟨host,_,found,_,_,permitted⟩
    cases found
    exact absurd permitted (by decide)
  · rintro ⟨host,_,found,_,_,permitted⟩
    cases found
    exact absurd permitted (by decide)

end ClawKernel.Script.Net
