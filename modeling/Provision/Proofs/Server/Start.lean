/-
  Provision.Proofs.Server.Start

  What a start does to the machine. Addresses are bound one after the other and an accept loop
  runs on each at once, so a start that fails at one of them leaves open what it bound before
  (`Server.bindAll_eq_error`). With both families enabled that can be the IPv6 listener
  (`Server.left_open_of_failed_start`, `Server.left_open_ipv6`).
-/
import Provision.Server.Start

namespace Provision

/-! ## Binding one address -/

/-- The machine with more listeners. -/
def Host.withListeners (host : Host) (opened : List Listener) : Host :=
  { host with listeners := host.listeners ++ opened }

@[simp] theorem Host.withListeners_nil (host : Host) : host.withListeners [] = host := by
  rw [withListeners, List.append_nil]

theorem Host.withListeners_append (host : Host) (first second : List Listener) :
    host.withListeners (first ++ second) = (host.withListeners first).withListeners second := by
  rw [withListeners, withListeners, withListeners, List.append_assoc]

theorem Host.bind_eq (host : Host) (address : IpAddress) (port : Nat) :
    host.bind address port =
      match host.bindFault host.listeners address port with
      | some fault => (.error fault, host)
      | none => (.ok ⟨address, port⟩, host.withListeners [⟨address, port⟩]) :=
  rfl

namespace Server

variable {port : Nat} {text : String} {texts : List String} {bound bound' : List Listener}
  {host host' : Host} {error : StartError}

/-- Why a start fails at an address, after others were bound. -/
inductive FailsAt (port : Nat) (bound : List Listener) (host : Host) (text : String) :
    StartError → Prop
  | badAddress (h : IpAddress.ofText? text = none) : FailsAt port bound host text (.badAddress text)
  | unbound {address : IpAddress} {fault : SystemFault}
    (haddress : IpAddress.ofText? text = some address)
    (hfault : host.bindFault host.listeners address port = some fault)
    (hserved : isServedAlready address bound fault = false) :
    FailsAt port bound host text (.unbound address port fault)
  /-- It is bound and cannot tell its address, so it is closed again. -/
  | unnamed {address : IpAddress} {fault : SystemFault}
    (haddress : IpAddress.ofText? text = some address)
    (hfree : host.bindFault host.listeners address port = none)
    (hunnamed : host.addressFault ⟨address, port⟩ = some fault) :
    FailsAt port bound host text (.unnamed fault)

/-- What an address adds that does not end a start, after others were bound: a listener, or nothing
    where the port is served already. -/
inductive Settles (port : Nat) (bound : List Listener) (host : Host) (text : String) :
    List Listener → Prop
  | opened {address : IpAddress} (haddress : IpAddress.ofText? text = some address)
    (hfree : host.bindFault host.listeners address port = none)
    (hnamed : host.addressFault ⟨address, port⟩ = none) :
    Settles port bound host text [⟨address, port⟩]
  | served {address : IpAddress} (haddress : IpAddress.ofText? text = some address)
    (hv4 : address.isV4 = true) (hbound : bound ≠ [])
    (hfault : host.bindFault host.listeners address port = some .addressInUse) :
    Settles port bound host text []

theorem isServedAlready_eq_true_iff {address : IpAddress} {fault : SystemFault} :
    isServedAlready address bound fault = true ↔
      address.isV4 = true ∧ bound ≠ [] ∧ fault = .addressInUse := by
  simp [isServedAlready, and_assoc]

theorem settles_or_failsAt (port : Nat) (bound : List Listener) (host : Host) (text : String) :
    (∃ opened, Settles port bound host text opened) ∨
      ∃ error, FailsAt port bound host text error := by
  cases haddress : IpAddress.ofText? text with
  | none => exact Or.inr ⟨_, .badAddress haddress⟩
  | some address =>
    cases hfault : host.bindFault host.listeners address port with
    | none =>
      cases hnamed : host.addressFault ⟨address, port⟩ with
      | none => exact Or.inl ⟨_, .opened haddress hfault hnamed⟩
      | some fault => exact Or.inr ⟨_, .unnamed haddress hfault hnamed⟩
    | some fault =>
      cases hserved : isServedAlready address bound fault with
      | false => exact Or.inr ⟨_, .unbound haddress hfault hserved⟩
      | true =>
        obtain ⟨hv4, hbound, rfl⟩ := isServedAlready_eq_true_iff.mp hserved
        exact Or.inl ⟨_, .served haddress hv4 hbound hfault⟩

theorem Settles.bindAll_cons {opened : List Listener} (h : Settles port bound host text opened)
    (rest : List String) :
    bindAll port (text :: rest) bound host =
      bindAll port rest (bound ++ opened) (host.withListeners opened) := by
  cases h with
  | opened haddress hfree hnamed => simp [bindAll, Host.bind_eq, haddress, hfree, hnamed]
  | served haddress hv4 hbound hfault =>
    have hserved := isServedAlready_eq_true_iff.mpr ⟨hv4, hbound, rfl⟩
    simp [bindAll, Host.bind_eq, haddress, hfault, hserved]

theorem FailsAt.bindAll_cons (h : FailsAt port bound host text error) (rest : List String) :
    bindAll port (text :: rest) bound host = (.error error, host) := by
  cases h with
  | badAddress haddress => simp [bindAll, haddress]
  | unbound haddress hfault hserved => simp [bindAll, Host.bind_eq, haddress, hfault, hserved]
  | unnamed haddress hfree hunnamed => simp [bindAll, Host.bind_eq, haddress, hfree, hunnamed]

/-- What becomes of the address that comes first, whichever come after it: it ends the start, or
    it is passed over, or it is bound. -/
theorem bindAll_cons_cases (port : Nat) (text : String) (bound : List Listener) (host : Host) :
    (∃ error, FailsAt port bound host text error ∧
        ∀ rest, bindAll port (text :: rest) bound host = (.error error, host)) ∨
      (bound ≠ [] ∧
        ∀ rest, bindAll port (text :: rest) bound host = bindAll port rest bound host) ∨
      ∃ address, IpAddress.ofText? text = some address ∧
        ∀ rest, bindAll port (text :: rest) bound host =
          bindAll port rest (bound ++ [⟨address, port⟩])
            (host.withListeners [⟨address, port⟩]) := by
  rcases settles_or_failsAt port bound host text with ⟨opened, hsettles⟩ | ⟨error, hfails⟩
  · have hbind := hsettles.bindAll_cons
    cases hsettles with
    | opened haddress hfree hnamed => exact Or.inr (Or.inr ⟨_, haddress, hbind⟩)
    | served haddress hv4 hbound hfault =>
      rw [List.append_nil, Host.withListeners_nil] at hbind
      exact Or.inr (Or.inl ⟨hbound, hbind⟩)
  · exact Or.inl ⟨error, hfails, hfails.bindAll_cons⟩

/-! ## Binding all of them -/

/-- Where binding fails at an address, those before it were bound, and they stay so. -/
theorem bindAll_eq_error (h : bindAll port texts bound host = (.error error, host')) :
    ∃ before text after bound', texts = before ++ text :: after ∧
      bindAll port before bound host = (.ok bound', host') ∧
      FailsAt port bound' host' text error := by
  induction texts generalizing bound host with
  | nil => cases h
  | cons text rest ih =>
    rcases bindAll_cons_cases port text bound host with
      ⟨error', hfails, hbind⟩ | ⟨-, hbind⟩ | ⟨address, -, hbind⟩
    · rw [hbind] at h
      obtain ⟨herror, rfl⟩ := Prod.mk.inj h
      exact ⟨[], text, rest, bound, rfl, rfl, Except.error.inj herror ▸ hfails⟩
    · rw [hbind] at h
      obtain ⟨before, failing, after, bound', rfl, hbefore, hfails⟩ := ih h
      exact ⟨text :: before, failing, after, bound', rfl, (hbind before).trans hbefore, hfails⟩
    · rw [hbind] at h
      obtain ⟨before, failing, after, bound', rfl, hbefore, hfails⟩ := ih h
      exact ⟨text :: before, failing, after, bound', rfl, (hbind before).trans hbefore, hfails⟩

/-- Of the two families the IPv6 one comes first. -/
theorem bindTexts_eq_append {config : ServerConfig} {first second : String}
    {before after : List String} (h : bindTexts config = first :: before ++ second :: after) :
    (config.ipv6 = true ∧ config.ipv4 = true) ∧
      first = config.bindV6 ∧ before = [] ∧ second = config.bindV4 := by
  unfold bindTexts at h
  cases hv6 : config.ipv6 <;> cases hv4 : config.ipv4 <;> rw [hv6, hv4] at h <;>
    cases before <;> simp_all

/-- A start fails for its credentials or at an address. -/
theorem start_eq_error {server : Server} (h : server.start host = (.error error, host')) :
    server.credentials.isSome = true ∧ host' = host ∨
      bindAll server.config.port (bindTexts server.config.server) [] host =
        (.error error, host') := by
  unfold start at h
  split at h
  · rename_i hcredentials
    exact Or.inl ⟨hcredentials, (Prod.mk.inj h).2.symm⟩
  · split at h
    · rename_i hfailed
      obtain ⟨herror, rfl⟩ := Prod.mk.inj h
      exact Or.inr (Except.error.inj herror ▸ hfailed)
    · cases (Prod.mk.inj h).1

/-- A start that fails leaves the machine as it was, unless both families are enabled and only the
    IPv4 address fails: then the IPv6 listener stays open, and its accept loop with it. -/
theorem left_open_of_failed_start {server : Server}
    (h : server.start host = (.error error, host')) :
    let config := server.config.server
    let port := server.config.port
    (host' = host ∧ (server.credentials.isSome = true ∨
      ∃ text, (bindTexts config).head? = some text ∧ FailsAt port [] host text error)) ∨
    ((config.ipv6 = true ∧ config.ipv4 = true) ∧
      ∃ address, IpAddress.ofText? config.bindV6 = some address ∧
        host' = host.withListeners [⟨address, port⟩] ∧
        FailsAt port [⟨address, port⟩] host' config.bindV4 error) := by
  intro config port
  rcases start_eq_error h with ⟨hcredentials, rfl⟩ | hbind
  · exact Or.inl ⟨rfl, Or.inl hcredentials⟩
  · obtain ⟨before, text, after, bound, htexts, hbefore, hfails⟩ := bindAll_eq_error hbind
    cases before with
    | nil =>
      -- the first address failed, so nothing was bound
      obtain ⟨hbound, rfl⟩ := Prod.mk.inj hbefore
      obtain rfl := Except.ok.inj hbound
      refine Or.inl ⟨rfl, Or.inr ⟨text, ?_, hfails⟩⟩
      rw [htexts]
      rfl
    | cons first before =>
      -- only the IPv6 address comes before another one, and it was bound
      obtain ⟨hfamilies, rfl, rfl, rfl⟩ := bindTexts_eq_append htexts
      refine Or.inr ⟨hfamilies, ?_⟩
      rcases bindAll_cons_cases port config.bindV6 [] host with
        ⟨error', -, hfirst⟩ | ⟨hne, -⟩ | ⟨address, haddress, hfirst⟩
      · rw [hfirst] at hbefore
        cases hbefore
      · exact absurd rfl hne
      · rw [hfirst] at hbefore
        obtain ⟨hbound, rfl⟩ := Prod.mk.inj hbefore
        obtain rfl := Except.ok.inj hbound
        exact ⟨address, haddress, rfl, hfails⟩

/-- A machine that owns IPv6 addresses alone. -/
theorem left_open_of_failed_start_unowned :
    let host := Host.ofAddresses (fun address => !address.isV4) fun _ => true
    let server : Server := ⟨{ Config.standard with
      server := ⟨some 8080, true, true, "127.0.0.1", "::1", 2⟩ }, .empty "Setup" 2, none⟩
    ∃ host', server.start host =
        (.error (.unbound (.v4 127 0 0 1) 8080 .addressNotAvailable), host') ∧
      ∃ address, IpAddress.ofText? "::1" = some address ∧
        host' = host.withListeners [⟨address, 8080⟩] := by
  intro host server
  have hv6 : IpAddress.ofText? "::1" = some (.v6 #v[0, 0, 0, 0, 0, 0, 0, 1]) := by decide
  have hv4 : IpAddress.ofText? "127.0.0.1" = some (.v4 127 0 0 1) := by decide
  have hstart : server.start host = (.error (.unbound (.v4 127 0 0 1) 8080 .addressNotAvailable),
      host.withListeners [⟨.v6 #v[0, 0, 0, 0, 0, 0, 0, 1], 8080⟩]) := by
    simp [start, bindTexts, bindAll, Host.bind_eq, Host.withListeners, Host.ofAddresses,
      Host.isTaken, IpAddress.isV4, isServedAlready, Config.port, host, server, hv6, hv4]
  refine ⟨_, hstart, ?_⟩
  rcases left_open_of_failed_start hstart with ⟨hsame, -⟩ | ⟨-, address, haddress, hopen, -⟩
  · have hlisteners := congrArg Host.listeners hsame
    exact absurd hlisteners (by decide)
  · exact ⟨address, haddress, hopen⟩

/-- A text that is no address at all, where the IPv4 address should stand, fails the start when the
    IPv6 listener is open already. -/
theorem left_open_ipv6 :
    let host := Host.ofAddresses (fun _ => true) fun _ => true
    let server : Server := ⟨{ Config.standard with
      server := ⟨some 8080, true, true, "nope", "::1", 2⟩ }, .empty "Setup" 2, none⟩
    ∃ error host', server.start host = (.error error, host') ∧ host.listeners = [] ∧
      host'.listeners = [⟨.v6 #v[0, 0, 0, 0, 0, 0, 0, 1], 8080⟩] :=
  ⟨.badAddress "nope", _, rfl, rfl, by decide⟩

end Server

end Provision
