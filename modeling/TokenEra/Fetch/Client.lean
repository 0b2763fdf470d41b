import TokenEra.Fetch.Protection
import TokenEra.Lib.Run

/-!
# The protected client

A client made by `newProtectedFetchHTTPClient`, without a proxy: `RoundTrip` checks the URL of each
request, `CheckRedirect` that of each redirect, and the dialer checks the host and every address
again before it dials. The resolver may answer differently each time it is asked.

The dialer passes on only addresses that the IP filter accepts (`dialContext_allowed`). A host that
is an address after trimming but not before is looked up as a name and never compared with the
domain list; for the others the name is allowed, too.
-/

namespace TokenEra.Fetch

open Lib

inductive Settings
  | invalid
  | disabled
  | enabled (p : SSRFProtection)

/-- What the underlying dialer is asked for: `JoinHostPort` of an address, or of a host as it came.
-/
inductive DialAddr
  | literal (ip : IP) (portText : String)
  | name (host portText : String)
deriving DecidableEq, Repr

structure Client where
  settings : Settings
  /-- `unicode.ToLower`. -/
  lower : Char → Char

/-! ### The dialer -/

inductive DialError
  | settings
  | invalidAddress
  | invalidPort (text : String)
  | rejected (e : FetchError)
  | resolution (host : String)
deriving DecidableEq, Repr

def networkAllowsIP (network : String) (ip : IP) : Bool :=
  if network = "tcp4" then ip.to4.isSome else if network = "tcp6" then ip.to4.isNone else true

/-- The addresses of an answer that fit the network; one that is not accepted stops the dial. -/
def candidateIPs (p : SSRFProtection) (network host : String) : List (Option IP) → Except FetchError (List IP)
  | [] => .ok []
  | none :: resolved => candidateIPs p network host resolved
  | some ip :: resolved =>
    if !networkAllowsIP network ip then candidateIPs p network host resolved
    else
      match validateResolvedIP p host ip with
      | .error e => .error e
      | .ok () => (candidateIPs p network host resolved).map (ip :: ·)

/-- `DialContext`: what is passed to the underlying dialer, which fails for the first `failures`
candidates. The address is given as `SplitHostPort` reads it. -/
def dialContext (c : Client) (network : String) (answer : Option (List (Option IP))) (failures : Nat)
    (addr : Option (String × String)) : Except DialError (List DialAddr) :=
  match c.settings, addr with
  | .invalid, _ => .error .settings
  | .disabled, none => .error .invalidAddress
  | .disabled, some (host, portText) => .ok [.name host portText]
  | .enabled _, none => .error .invalidAddress
  | .enabled p, some (host, portText) =>
    match atoi portText with
    | none => .error (.invalidPort portText)
    | some port =>
      match validateNetworkTarget c.lower p host port with
      | .error e => .error (.rejected e)
      | .ok () =>
        match parseIP host with
        | some ip => .ok [.literal ip portText]
        | none =>
          if p.applyIPFilterForDomain = false then .ok [.name host portText]
          else
            match answer with
            | none => .error (.resolution host)
            | some resolved =>
              match candidateIPs p network host resolved with
              | .error e => .error (.rejected e)
              | .ok ips => .ok ((ips.take (failures + 1)).map fun ip => .literal ip portText)

/-! ### Fetches -/

/-- Requests are listed with the number of redirects before them. -/
structure State where
  requests : List (URL × Nat)
  /-- Those that have passed `RoundTrip`: the transport may dial for them, also after they have
  ended. -/
  checked : List (URL × Nat)
  /-- What was passed to the underlying dialer, with the URL of the request. -/
  dials : List (URL × DialAddr)
deriving DecidableEq, Repr

inductive Action
  | fetch (u : URL)
  /-- `RoundTrip`, with the resolver's answer. -/
  | check (u : URL) (via : Nat) (answer : Option (List IP))
  /-- The transport dials for a request; which address it derives from the URL is left open. -/
  | dial (u : URL) (via : Nat) (network : String) (addr : Option (String × String)) (answer : Option (List (Option IP)))
    (failures : Nat)
  /-- The response to a request redirects to `target`, and the resolver answers. -/
  | redirect (u : URL) (via : Nat) (target : URL) (answer : Option (List IP))
deriving DecidableEq, Repr

/-- `ValidateSSRFProtectedFetchURL`. -/
def urlAccepted (c : Client) (answer : Option (List IP)) (u : URL) : Bool :=
  match c.settings with
  | .invalid => false
  | .disabled => true
  | .enabled p => (validateURL c.lower p answer u).isOk

def step (c : Client) (s : State) : Action → Option State
  | .fetch u => some { s with requests := (u, 0) :: s.requests }
  | .check u via answer =>
    if (u, via) ∉ s.requests then none
    else if urlAccepted c answer u then some { s with checked := (u, via) :: s.checked }
    else some s
  | .dial u via network addr answer failures =>
    if (u, via) ∉ s.checked then none
    else
      match dialContext c network answer failures addr with
      | .ok addrs => some { s with dials := s.dials ++ addrs.map fun addr => (u, addr) }
      | .error _ => some s
  | .redirect u via target answer =>
    if (u, via) ∉ s.checked then none
    -- `checkProtectedFetchRedirect`; the requests so far are `via + 1`
    else if urlAccepted c answer target ∧ via + 1 < 10 then some { s with requests := (target, via + 1) :: s.requests }
    else some s

def init : State := ⟨[], [], []⟩

/-! ### What is dialed -/

def AddrAllowed (p : SSRFProtection) (addr : DialAddr) : Prop :=
  ∃ ip portText port, addr = .literal ip portText ∧ atoi portText = some port ∧ 1 ≤ port ∧ port ≤ 65535 ∧
    isAllowedPort p port = true ∧ isIPAccessAllowed p ip = true

def NameAllowed (c : Client) (p : SSRFProtection) (u : URL) : Prop :=
  parseIP u.hostname = none → isDomainAllowed c.lower p (trimSpace u.hostname) = true

/-- The host is no address that only trimming brings out, unless the domain filter allows it as a
name. -/
def NotPadded (c : Client) (p : SSRFProtection) (u : URL) : Prop :=
  (parseIP (trimSpace u.hostname)).isSome = true → NameAllowed c p u

instance (c : Client) (p : SSRFProtection) (u : URL) : Decidable (NameAllowed c p u) :=
  inferInstanceAs (Decidable (_ → _))

instance (c : Client) (p : SSRFProtection) (u : URL) : Decidable (NotPadded c p u) :=
  inferInstanceAs (Decidable (_ → _))

def Proper (c : Client) (p : SSRFProtection) : Action → Prop
  | .fetch u => NotPadded c p u
  | .redirect _ _ target _ => NotPadded c p target
  | _ => True

instance (c : Client) (p : SSRFProtection) (a : Action) : Decidable (Proper c p a) := by
  cases a <;> unfold Proper <;> infer_instance

variable {c : Client} {p : SSRFProtection}

theorem candidateIPs_ok {network host : String} {resolved : List (Option IP)} {ips : List IP}
    (h : candidateIPs p network host resolved = .ok ips) : ∀ ip ∈ ips, isIPAccessAllowed p ip = true := by
  induction resolved generalizing ips with
  | nil =>
    cases h
    simp
  | cons x resolved ih =>
    cases x with
    | none => exact ih h
    | some ip =>
      rw [candidateIPs] at h
      split_ifs at h with hnetwork
      · exact ih h
      · cases hvalid : validateResolvedIP p host ip with
        | error e => simp [hvalid] at h
        | ok =>
          cases hrest : candidateIPs p network host resolved with
          | error e => simp [hvalid, hrest, Except.map] at h
          | ok rest =>
            simp only [hvalid, hrest, Except.map] at h
            cases h
            exact List.forall_mem_cons.2 ⟨validateResolvedIP_ok.1 hvalid, ih hrest⟩

/-- Whatever the resolver answers, only accepted addresses are dialed. -/
theorem dialContext_allowed (hc : c.settings = .enabled p) (hp : p.applyIPFilterForDomain = true) {network : String}
    {answer : Option (List (Option IP))} {failures : Nat} {addr : Option (String × String)} {addrs : List DialAddr}
    (h : dialContext c network answer failures addr = .ok addrs) : ∀ a ∈ addrs, AddrAllowed p a := by
  unfold dialContext at h
  rw [hc] at h
  cases addr with
  | none => cases h
  | some target =>
    obtain ⟨host, portText⟩ := target
    dsimp only at h
    cases hport : atoi portText with
    | none => simp [hport] at h
    | some port =>
      cases htarget : validateNetworkTarget c.lower p host port with
      | error e => simp [hport, htarget] at h
      | ok =>
        obtain ⟨hlow, hhigh, hallowed, haccess, -⟩ := validateNetworkTarget_ok htarget
        simp only [hport, htarget] at h
        cases hip : parseIP host with
        | some ip =>
          simp only [hip] at h
          cases h
          have hok : isIPAccessAllowed p ip = true := haccess ip (by rw [trimSpace_of_parseIP hip, hip])
          simp only [List.mem_singleton, forall_eq]
          exact ⟨ip, portText, port, rfl, hport, hlow, hhigh, hallowed, hok⟩
        | none =>
          rw [hip, hp] at h
          simp only [Bool.true_eq_false, if_false] at h
          cases answer with
          | none => cases h
          | some resolved =>
            cases hips : candidateIPs p network host resolved with
            | error e => simp [hips] at h
            | ok ips =>
              simp only [hips] at h
              cases h
              intro a ha
              obtain ⟨ip, hmem, rfl⟩ := List.mem_map.1 ha
              have hok := candidateIPs_ok hips ip (List.mem_of_mem_take hmem)
              exact ⟨ip, portText, port, rfl, hport, hlow, hhigh, hallowed, hok⟩

/-! ### Runs -/

theorem step_cases {s t : State} {a : Action} (hc : c.settings = .enabled p) (h : step c s a = some t) :
    (∃ u, a = .fetch u ∧ t = { s with requests := (u, 0) :: s.requests }) ∨
    (∃ u via answer, (u, via) ∈ s.requests ∧ validateURL c.lower p answer u = .ok () ∧
      t = { s with checked := (u, via) :: s.checked }) ∨
    (∃ u via network answer failures addr addrs, (u, via) ∈ s.checked ∧
      dialContext c network answer failures addr = .ok addrs ∧
      t = { s with dials := s.dials ++ addrs.map fun addr => (u, addr) }) ∨
    (∃ u via target answer, a = .redirect u via target answer ∧
      t = { s with requests := (target, via + 1) :: s.requests }) ∨
    t = s := by
  have accepted {answer : Option (List IP)} {u : URL} (h : urlAccepted c answer u = true) :
      validateURL c.lower p answer u = .ok () := by
    unfold urlAccepted at h
    rw [hc] at h
    cases hurl : validateURL c.lower p answer u with
    | error e => simp [hurl, Except.isOk, Except.toBool] at h
    | ok => rfl
  cases a with
  | fetch u => exact .inl ⟨u, rfl, (Option.some.inj h).symm⟩
  | check u via answer =>
    rw [step] at h
    split at h
    · cases h
    rename_i hmem
    split at h
    · rename_i hurl
      exact .inr (.inl ⟨u, via, answer, not_not.1 hmem, accepted hurl, (Option.some.inj h).symm⟩)
    · exact .inr (.inr (.inr (.inr (Option.some.inj h).symm)))
  | dial u via network addr answer failures =>
    rw [step] at h
    split at h
    · cases h
    rename_i hmem
    split at h
    · rename_i addrs haddrs
      exact .inr (.inr (.inl
        ⟨u, via, network, answer, failures, addr, addrs, not_not.1 hmem, haddrs, (Option.some.inj h).symm⟩))
    · exact .inr (.inr (.inr (.inr (Option.some.inj h).symm)))
  | redirect u via target answer =>
    rw [step] at h
    split at h
    · cases h
    split at h
    · exact .inr (.inr (.inr (.inl ⟨u, via, target, answer, rfl, (Option.some.inj h).symm⟩)))
    · exact .inr (.inr (.inr (.inr (Option.some.inj h).symm)))

/-- Requests have unpadded hosts, and those that are checked, and hence dialed for, allowed names.
-/
structure NamesInv (c : Client) (p : SSRFProtection) (s : State) : Prop where
  requests : ∀ r ∈ s.requests, NotPadded c p r.1
  checked : ∀ r ∈ s.checked, NameAllowed c p r.1
  dials : ∀ d ∈ s.dials, NameAllowed c p d.1

theorem nameAllowed_of_validateURL {u : URL} {answer : Option (List IP)}
    (hurl : validateURL c.lower p answer u = .ok ())
    (hu : NotPadded c p u) : NameAllowed c p u := by
  cases hip : parseIP (trimSpace u.hostname) with
  | none => exact fun _ => validateURL_ok hurl hip
  | some ip => exact hu (by simp [hip])

theorem NamesInv.step {s t : State} {a : Action} (hc : c.settings = .enabled p)
    (hs : NamesInv c p s) (ha : Proper c p a) (h : Fetch.step c s a = some t) : NamesInv c p t := by
  obtain ⟨u, rfl, rfl⟩ | ⟨u, via, answer, hmem, hurl, rfl⟩ | ⟨u, via, network, answer, failures,
    addr, addrs, hmem, -, rfl⟩ |
    ⟨u, via, target, answer, rfl, rfl⟩ | rfl := step_cases hc h
  · refine { hs with requests := fun r hr => ?_ }
    obtain rfl | hr := List.mem_cons.1 hr
    · exact ha
    · exact hs.requests r hr
  · refine { hs with checked := fun r hr => ?_ }
    obtain rfl | hr := List.mem_cons.1 hr
    · exact nameAllowed_of_validateURL hurl (hs.requests _ hmem)
    · exact hs.checked r hr
  · refine { hs with dials := fun d hd => ?_ }
    obtain hd | hd := List.mem_append.1 hd
    · exact hs.dials d hd
    · obtain ⟨a, -, rfl⟩ := List.mem_map.1 hd
      exact hs.checked _ hmem
  · refine { hs with requests := fun r hr => ?_ }
    obtain rfl | hr := List.mem_cons.1 hr
    · exact ha
    · exact hs.requests r hr
  · exact hs

theorem addrAllowed_step {s t : State} {a : Action} (hc : c.settings = .enabled p)
    (hp : p.applyIPFilterForDomain = true)
    (hs : ∀ d ∈ s.dials, AddrAllowed p d.2) (h : step c s a = some t) : ∀ d ∈ t.dials, AddrAllowed p d.2 := by
  obtain ⟨u, -, rfl⟩ | ⟨u, via, answer, -, -, rfl⟩ | ⟨u, via, network, answer, failures, addr, addrs, -, haddrs, rfl⟩ |
    ⟨u, via, target, answer, -, rfl⟩ | rfl := step_cases hc h
  · exact hs
  · exact hs
  · intro d hd
    obtain hd | hd := List.mem_append.1 hd
    · exact hs d hd
    · obtain ⟨a, ha, rfl⟩ := List.mem_map.1 hd
      exact dialContext_allowed hc hp haddrs a ha
  · exact hs
  · exact hs

def strict : SSRFProtection where
  allowPrivateIp := false
  domainFilterMode := true
  domainList := ["example.com"]
  ipFilterMode := false
  ipList := []
  allowedPorts := [80, 443]
  applyIPFilterForDomain := true

def strictClient : Client := ⟨.enabled strict, lowerChar⟩

def dialRun (u : URL) (ip : IP) : List Action :=
  [.fetch u, .check u 0 (some [ip]), .dial u 0 "tcp" (some (u.hostname, u.portText)) (some [some ip]) 0]

/-- `http://%C2%A08.8.8.8/`: the checks of the host see the address after the no-break space, the
lookups all of it. -/
def paddedURL : URL := ⟨"http", "\u00a08.8.8.8", none⟩

def redirectRun : List Action :=
  let u : URL := ⟨"https", "example.com", none⟩
  let v : URL := ⟨"http", "8.8.4.4", some "80"⟩
  dialRun u (.ofV4 (v4 9 9 9 9)) ++
    [.redirect u 0 v none, .check v 1 none, .dial v 1 "tcp4" (some ("8.8.4.4", "80")) none 0]

end TokenEra.Fetch
