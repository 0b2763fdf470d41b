import TokenEra.Fetch.Address

/-!
# SSRF protection

`SSRFProtection` and its checks: of a host and a port before a dial (`validateNetworkTarget`), of an
address that a name resolves to (`validateResolvedIP`), and of a URL (`validateURL`). The resolver's
answer is an argument.

`validateNetworkTarget` trims the host before it asks whether it is an address; `validateURL` and
the dialer do not when they ask the same.
-/

namespace TokenEra.Fetch

open Lib

structure SSRFProtection where
  allowPrivateIp : Bool
  /-- `true`: only listed domains; `false`: all but these. -/
  domainFilterMode : Bool
  domainList : List String
  ipFilterMode : Bool
  ipList : List String
  allowedPorts : List Int
  applyIPFilterForDomain : Bool

inductive FetchError
  | invalidHost
  | invalidPort (text : String)
  | portNotAllowed (port : Int)
  | privateIP (host : String) (ip : IP)
  | ipNotInWhitelist (host : String) (ip : IP)
  | ipInBlacklist (host : String) (ip : IP)
  | domainNotInWhitelist (host : String)
  | domainInBlacklist (host : String)
  | unsupportedProtocol (scheme : String)
  | resolution (host : String)
deriving DecidableEq, Repr

/-- `strconv.Atoi`. -/
def atoi (s : String) : Option Int :=
  let value : Option Int :=
    match s.toList with
    | '-' :: l => (decimal? l).map fun n => -(n : Int)
    | '+' :: l => (decimal? l).map fun n => (n : Int)
    | l => (decimal? l).map fun n => (n : Int)
  value.filter fun n => -2 ^ 63 ≤ n ∧ n < 2 ^ 63

/-! ### Filters -/

section Filters

variable (lower : Char → Char) (p : SSRFProtection)

def isAllowedPort (port : Int) : Bool := p.allowedPorts = [] || p.allowedPorts.contains port

/-- `strings.ToLower`, for the given `unicode.ToLower`. -/
def lowerText (s : String) : String := String.ofList (s.toList.map lower)

def isDomainListed (domain : String) (list : List String) : Bool :=
  let domain := lowerText lower domain
  list.any fun item =>
    let item := lowerText lower (trimSpace item)
    if item = "" then false
    else
      domain = item ||
        (hasStart "*." item &&
          (hasTail ("." ++ cutStart "*." item) domain || domain = cutStart "*." item))

def isDomainAllowed (domain : String) : Bool :=
  if p.domainFilterMode then isDomainListed lower domain p.domainList else !isDomainListed lower domain p.domainList

def isIPListed (ip : IP) (list : List String) : Bool := list ≠ [] && isIpInCIDRList ip list

def isIPAccessAllowed (ip : IP) : Bool :=
  if isPrivateIP ip && !p.allowPrivateIp then false
  else if p.ipFilterMode then isIPListed ip p.ipList
  else !isIPListed ip p.ipList

def ipAccessError (host : String) (ip : IP) : FetchError :=
  if isPrivateIP ip && !p.allowPrivateIp then .privateIP host ip
  else if p.ipFilterMode then .ipNotInWhitelist host ip
  else .ipInBlacklist host ip

/-! ### Checks -/

def validateNetworkTarget (host : String) (port : Int) : Except FetchError Unit :=
  let host := trimSpace host
  if host = "" then .error .invalidHost
  else if port < 1 ∨ port > 65535 then .error (.invalidPort (toString port))
  else if !isAllowedPort p port then .error (.portNotAllowed port)
  else
    match parseIP host with
    | some ip => if isIPAccessAllowed p ip then .ok () else .error (ipAccessError p "" ip)
    | none =>
      if isDomainAllowed lower p host then .ok ()
      else if p.domainFilterMode then .error (.domainNotInWhitelist host)
      else .error (.domainInBlacklist host)

def validateResolvedIP (host : String) (ip : IP) : Except FetchError Unit :=
  if isIPAccessAllowed p ip then .ok () else .error (ipAccessError p host ip)

/-- A parsed URL: its host, and the port if `SplitHostPort` finds one. -/
structure URL where
  scheme : String
  hostname : String
  port : Option String
deriving DecidableEq, Repr

def URL.portText (u : URL) : String := u.port.getD (if u.scheme = "https" then "443" else "80")

/-- `ValidateURL`, with the answer to `net.LookupIP`. -/
def validateURL (answer : Option (List IP)) (u : URL) : Except FetchError Unit :=
  if u.scheme ≠ "http" ∧ u.scheme ≠ "https" then .error (.unsupportedProtocol u.scheme)
  else
    match atoi u.portText with
    | none => .error (.invalidPort u.portText)
    | some port =>
      match validateNetworkTarget lower p u.hostname port with
      | .error e => .error e
      | .ok () =>
        if (parseIP u.hostname).isSome ∨ p.applyIPFilterForDomain = false then .ok ()
        else
          match answer with
          | none => .error (.resolution u.hostname)
          | some ips => ips.forM (validateResolvedIP p u.hostname)

end Filters

/-! ### What the checks say -/

variable {lower : Char → Char} {p : SSRFProtection} {host : String} {port : Int} {u : URL}

theorem validateNetworkTarget_ok (h : validateNetworkTarget lower p host port = .ok ()) :
    1 ≤ port ∧ port ≤ 65535 ∧ isAllowedPort p port = true ∧
      (∀ ip, parseIP (trimSpace host) = some ip → isIPAccessAllowed p ip = true) ∧
      (parseIP (trimSpace host) = none → isDomainAllowed lower p (trimSpace host) = true) := by
  unfold validateNetworkTarget at h
  dsimp only at h
  split at h
  · cases h
  split at h
  · cases h
  split at h
  · cases h
  rename_i hport hallowed
  refine ⟨by omega, by omega, by simpa using hallowed, fun ip hip => ?_, fun hnone => ?_⟩
  · rw [hip] at h
    by_contra hne
    simp [hne] at h
  · rw [hnone] at h
    by_contra hne
    rw [if_neg hne] at h
    split_ifs at h

theorem validateResolvedIP_ok {ip : IP} : validateResolvedIP p host ip = .ok () ↔ isIPAccessAllowed p ip = true := by
  unfold validateResolvedIP
  split_ifs with h <;> simp [h]

/-- The host of a URL that passes is an allowed name, unless trimming makes it an address. -/
theorem validateURL_ok {answer : Option (List IP)} (h : validateURL lower p answer u = .ok ())
    (hname : parseIP (trimSpace u.hostname) = none) : isDomainAllowed lower p (trimSpace u.hostname) = true := by
  unfold validateURL at h
  split at h
  · cases h
  split at h
  · cases h
  split at h
  · cases h
  rename_i htarget
  exact (validateNetworkTarget_ok htarget).2.2.2.2 hname

end TokenEra.Fetch
