/-
  Provision.Proofs.Server.Listening

  A server that has started listens, and has slots to serve in. A configuration that was read
  enables a family and at least one slot (`Config.Obtained.usable`), however the text was decoded
  and whatever port is set in it.
  The first enabled family is never passed over, so the listeners of a start that succeeds are not
  empty, and each family is missing or there for a reason that the start looked at
  (`Server.listening_of_start`).
-/
import Mathlib.Data.List.Basic
import Provision.Config.Schema
import Provision.Proofs.Server.Start

namespace Provision

/-! ## Configurations -/

namespace Config

variable {decode : Decoder} {config : Config}

/-- The configurations that a server is started with, where texts are decoded in this way. -/
inductive Obtained (decode : Decoder) : Config → Prop
  | standard : Obtained decode .standard
  | ofText {text : String} {config : Config} (h : Config.ofText decode text = .ok config) :
    Obtained decode config
  /-- The port of a configuration may be replaced by another. -/
  | override {config : Config} (h : Obtained decode config) (port : Nat) :
    Obtained decode { config with server := { config.server with port := some port } }

/-- Something can be served: there is a slot, and a family to listen for. -/
structure Usable (config : Config) : Prop where
  workers : 1 ≤ config.server.workers
  family : config.server.ipv6 = true ∨ config.server.ipv4 = true

theorem usable_standard : standard.Usable := ⟨by decide, Or.inr rfl⟩

theorem usable_of_validate {config' : Config} (h : config.validate = .ok config') :
    config'.Usable := by
  unfold validate at h
  split_ifs at h with hworkers hfamily
  cases h
  refine ⟨Nat.pos_of_ne_zero hworkers, ?_⟩
  cases hv6 : config.server.ipv6 with
  | true => exact Or.inl rfl
  | false =>
    cases hv4 : config.server.ipv4 with
    | true => exact Or.inr rfl
    | false => simp [hv4, hv6] at hfamily

theorem usable_of_ofText {text : String} (h : ofText decode text = .ok config) :
    config.Usable := by
  unfold ofText at h
  split at h
  · cases h
    exact usable_standard
  · split at h
    · cases h
    · exact usable_of_validate h

theorem Obtained.usable (h : config.Obtained decode) : config.Usable := by
  induction h with
  | standard => exact usable_standard
  | ofText h => exact usable_of_ofText h
  | override h port ih => exact ⟨ih.workers, ih.family⟩

end Config

/-- What an environment loads is the default or what a text says, but for the port. -/
theorem Environment.obtained_of_load {environment : Environment} {decode : Config.Decoder}
    {config : Config} (h : environment.load decode = .ok config) : config.Obtained decode := by
  have hbase : ∀ base, environment.baseConfig decode = .ok base → base.Obtained decode := by
    intro base hbase
    unfold baseConfig at hbase
    split at hbase
    · cases hbase
      exact .standard
    · split at hbase
      · cases hbase
      · split at hbase
        · cases hbase
        · rename_i hread
          cases hbase
          exact .ofText hread
  unfold load at h
  split at h
  · cases h
  · rename_i base hloaded
    split at h
    · cases h
      exact hbase _ hloaded
    · split at h
      · cases h
      · cases h
        exact (hbase base hloaded).override _

namespace Server

variable {enabled : Bool} {port : Nat} {text : String} {bound opened : List Listener}
  {host host' : Host} {error : StartError}

/-! ## Address families -/

/-- What a family adds to the listeners: nothing where it is not enabled. -/
def Opens (enabled : Bool) (port : Nat) (bound : List Listener) (host : Host) (text : String)
    (opened : List Listener) : Prop :=
  if enabled then Settles port bound host text opened else opened = []

/-- Where nothing was bound before, an address is not passed over. -/
theorem Settles.exists_eq_singleton (h : Settles port [] host text opened) :
    ∃ listener, opened = [listener] := by
  cases h with
  | opened haddress hfree hnamed => exact ⟨_, rfl⟩
  | served haddress hv4 hbound hfault => exact absurd rfl hbound

theorem opens_or_failsAt (enabled : Bool) (port : Nat) (bound : List Listener) (host : Host)
    (text : String) :
    (∃ opened, Opens enabled port bound host text opened) ∨
      (enabled = true ∧ ∃ error, FailsAt port bound host text error) := by
  cases enabled with
  | false => exact Or.inl ⟨[], rfl⟩
  | true => exact (settles_or_failsAt port bound host text).imp id fun hfails => ⟨rfl, hfails⟩

theorem Opens.bindAll_append (h : Opens enabled port bound host text opened)
    (rest : List String) :
    bindAll port ((if enabled then [text] else []) ++ rest) bound host =
      bindAll port rest (bound ++ opened) (host.withListeners opened) := by
  cases enabled with
  | false =>
    obtain rfl : opened = [] := h
    simp
  | true => exact Settles.bindAll_cons h rest

/-! ## Starting -/

section

variable {server : Server}

/-- What comes of a start without certificate material: a family fails, or both are settled. -/
inductive Starts (server : Server) (host : Host) : Except StartError RunningServer × Host → Prop
  | first {error : StartError} (henabled : server.config.server.ipv6 = true)
    (hfails : FailsAt server.config.port [] host server.config.server.bindV6 error) :
    Starts server host (.error error, host)
  | second {v6 : List Listener} {error : StartError}
    (hv6 : Opens server.config.server.ipv6 server.config.port [] host
      server.config.server.bindV6 v6)
    (henabled : server.config.server.ipv4 = true)
    (hfails : FailsAt server.config.port v6 (host.withListeners v6)
      server.config.server.bindV4 error) :
    Starts server host (.error error, host.withListeners v6)
  | running {v6 v4 : List Listener}
    (hv6 : Opens server.config.server.ipv6 server.config.port [] host
      server.config.server.bindV6 v6)
    (hv4 : Opens server.config.server.ipv4 server.config.port v6 (host.withListeners v6)
      server.config.server.bindV4 v4) :
    Starts server host
      (.ok ⟨⟨server.registry, server.config.limits⟩, v6 ++ v4,
        .ofSize server.config.server.workers⟩, host.withListeners (v6 ++ v4))

theorem start_eq_of_starts (hcredentials : server.credentials = none)
    {result : Except StartError RunningServer × Host} (h : Starts server host result) :
    server.start host = result := by
  rw [start, hcredentials, if_neg (by simp), bindTexts]
  cases h with
  | first henabled hfails => rw [if_pos henabled, List.singleton_append, hfails.bindAll_cons]
  | second hv6 henabled hfails =>
    rw [hv6.bindAll_append, List.nil_append, if_pos henabled, hfails.bindAll_cons]
  | running hv6 hv4 =>
    have hbind := hv4.bindAll_append []
    rw [List.append_nil, ← Host.withListeners_append] at hbind
    rw [hv6.bindAll_append, List.nil_append, hbind]
    rfl

theorem start_eq_iff (hcredentials : server.credentials = none)
    {result : Except StartError RunningServer × Host} :
    server.start host = result ↔ Starts server host result := by
  refine ⟨?_, start_eq_of_starts hcredentials⟩
  -- some outcome there is, and the start has it
  have hsome : ∃ result, Starts server host result := by
    rcases opens_or_failsAt server.config.server.ipv6 server.config.port [] host
        server.config.server.bindV6 with ⟨v6, hv6⟩ | ⟨henabled, error, hfails⟩
    · rcases opens_or_failsAt server.config.server.ipv4 server.config.port v6
          (host.withListeners v6) server.config.server.bindV4 with
        ⟨v4, hv4⟩ | ⟨henabled, error, hfails⟩
      · exact ⟨_, .running hv6 hv4⟩
      · exact ⟨_, .second hv6 henabled hfails⟩
    · exact ⟨_, .first henabled hfails⟩
  rintro rfl
  obtain ⟨result, hstarts⟩ := hsome
  rwa [start_eq_of_starts hcredentials hstarts]

/-- Of a usable configuration the first enabled family opens a listener. -/
theorem Opens.append_ne_nil {config : Config} (husable : config.Usable) {v6 v4 : List Listener}
    (hv6 : Opens config.server.ipv6 port [] host config.server.bindV6 v6)
    (hv4 : Opens config.server.ipv4 port v6 (host.withListeners v6) config.server.bindV4 v4) :
    v6 ++ v4 ≠ [] := by
  cases henabled : config.server.ipv6 with
  | true =>
    rw [henabled] at hv6
    obtain ⟨listener, rfl⟩ := Settles.exists_eq_singleton hv6
    exact List.cons_ne_nil _ _
  | false =>
    rw [henabled] at hv6
    obtain rfl : v6 = [] := hv6
    rw [husable.family.resolve_left (by simp [henabled])] at hv4
    obtain ⟨listener, rfl⟩ := Settles.exists_eq_singleton hv4
    exact List.cons_ne_nil _ _

/-- A server that has started listens on the addresses of the enabled families, IPv6 first, and
    has the configured slots, of both at least one. Only an IPv4 address whose port is taken is
    passed over, and only where an address was bound before it; whatever else keeps an address
    from being read or bound ends the start. -/
theorem listening_of_start {decode : Config.Decoder} (hconfig : server.config.Obtained decode)
    (hcredentials : server.credentials = none) (host : Host) :
    let config := server.config.server
    let port := server.config.port
    (∀ running host', server.start host = (.ok running, host') →
      running.listeners ≠ [] ∧ host' = host.withListeners running.listeners ∧
      running.pool.capacity = config.workers ∧ 1 ≤ running.pool.capacity ∧
      ∃ v6 v4, running.listeners = v6 ++ v4 ∧
        Opens config.ipv6 port [] host config.bindV6 v6 ∧
        Opens config.ipv4 port v6 (host.withListeners v6) config.bindV4 v4) ∧
    ∀ error host', server.start host = (.error error, host') ↔
      (config.ipv6 = true ∧ FailsAt port [] host config.bindV6 error ∧ host' = host) ∨
      ∃ v6, Opens config.ipv6 port [] host config.bindV6 v6 ∧ config.ipv4 = true ∧
        FailsAt port v6 (host.withListeners v6) config.bindV4 error ∧
        host' = host.withListeners v6 := by
  intro config port
  have husable := hconfig.usable
  have hcapacity : (Pool.ofSize config.workers).capacity = config.workers := List.length_replicate
  refine ⟨fun running host' hstart => ?_, fun error host' => ?_⟩
  · cases (start_eq_iff hcredentials).mp hstart with
    | @running v6 v4 hv6 hv4 =>
      exact ⟨hv6.append_ne_nil husable hv4, rfl, hcapacity,
        le_of_le_of_eq husable.workers hcapacity.symm, v6, v4, rfl, hv6, hv4⟩
  · rw [start_eq_iff hcredentials]
    constructor
    · rintro (⟨henabled, hfails⟩ | ⟨hv6, henabled, hfails⟩)
      · exact Or.inl ⟨henabled, hfails, rfl⟩
      · exact Or.inr ⟨_, hv6, henabled, hfails, rfl⟩
    · rintro (⟨henabled, hfails, rfl⟩ | ⟨v6, hv6, henabled, hfails, rfl⟩)
      · exact .first henabled hfails
      · exact .second hv6 henabled hfails

/-- A machine all of whose addresses can be bound, and a configuration whose IPv6 wildcard takes
    the port for both families. -/
theorem listening_of_start_wildcard :
    let environment : Environment := ⟨some (utf8 "onboard.yaml"), some (utf8 "8080"),
      ⟨fun _ => some (utf8 "server:\n  ipv6: true\n  workers: 2\n")⟩⟩
    let host := Host.ofAddresses (fun _ => true) fun _ => true
    ∃ config, environment.load Schema.decode = .ok config ∧ ∃ running host',
      start ⟨config, .empty "Setup" 2, none⟩ host = (.ok running, host') ∧
      running.listeners = [⟨.v6 (Vector.replicate 8 0), 8080⟩] ∧ running.listeners ≠ [] ∧
      host' = host.withListeners running.listeners ∧ 1 ≤ running.pool.capacity := by
  intro environment host
  let server : Server := ⟨{ Config.standard with
    server := ⟨some 8080, true, true, "0.0.0.0", "::", 2⟩ }, .empty "Setup" 2, none⟩
  let wildcard : Listener := ⟨.v6 (Vector.replicate 8 0), 8080⟩
  have hload : environment.load Schema.decode = .ok server.config := by decide +kernel
  have hv6 : IpAddress.ofText? "::" = some wildcard.address := by decide
  have hv4 : IpAddress.ofText? "0.0.0.0" = some (.v4 0 0 0 0) := by decide
  have hopened : Settles 8080 [] host "::" [wildcard] :=
    .opened hv6 (by decide) rfl
  have hserved : Settles 8080 [wildcard] (host.withListeners [wildcard]) "0.0.0.0" [] :=
    .served hv4 rfl (List.cons_ne_nil _ _) (by decide)
  have hstarts : Starts server host (.ok ⟨⟨server.registry, server.config.limits⟩,
      [wildcard] ++ [], .ofSize 2⟩, host.withListeners ([wildcard] ++ [])) :=
    .running hopened hserved
  have hstart := start_eq_of_starts rfl hstarts
  obtain ⟨hlistens, hopen, -, hworkers, -⟩ :=
    (listening_of_start (Environment.obtained_of_load hload) rfl host).1 _ _ hstart
  exact ⟨server.config, hload, _, _, hstart, rfl, hlistens, hopen, hworkers⟩

end

end Server

end Provision
