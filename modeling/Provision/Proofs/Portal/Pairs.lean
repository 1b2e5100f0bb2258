/-
  Provision.Proofs.Portal.Pairs

  Credentials that are posted on several connections at once. Between the two writes of one
  connection others may make theirs, so on the device each record is the one that was written
  last. The two records are the pair of one request unless a connection made both of its
  writes between the two of another (`Traffic.pair_of_finished`), and then they need not be
  (`Traffic.mixed_pair`).
-/
import Provision.Proofs.Portal.Writes

namespace Provision

open Http

/-! ## Writes in the order they are made -/

/-- A write of a setting, and the place of the connection that made it. -/
structure SettingWrite where
  place : Nat
  id : UInt8
  value : Bytes
deriving DecidableEq

namespace SettingWrite

variable {log : List SettingWrite} {write : SettingWrite}

/-- What the connection at a place has written, in order. -/
def madeAt (log : List SettingWrite) (place : Nat) : List (UInt8 × Bytes) :=
  (log.filter fun write => write.place = place).map fun write => (write.id, write.value)

/-- The writes of one call. -/
def ofCall (place : Nat) (written : List (UInt8 × Bytes)) : List SettingWrite :=
  written.map fun (id, value) => ⟨place, id, value⟩

/-- No write after it is one of the same setting. -/
def IsLast (log : List SettingWrite) (write : SettingWrite) : Prop :=
  ∃ before after, log = before ++ write :: after ∧ ∀ later ∈ after, later.id ≠ write.id

theorem mem_madeAt {place : Nat} {id : UInt8} {value : Bytes} :
    (id, value) ∈ madeAt log place ↔ ⟨place, id, value⟩ ∈ log := by
  simp only [madeAt, List.mem_map, List.mem_filter, decide_eq_true_eq, Prod.mk.injEq]
  refine ⟨?_, fun h => ⟨_, ⟨h, rfl⟩, rfl, rfl⟩⟩
  rintro ⟨⟨_, _, _⟩, ⟨hmem, rfl⟩, rfl, rfl⟩
  exact hmem

theorem madeAt_append (log more : List SettingWrite) (place : Nat) :
    madeAt (log ++ more) place = madeAt log place ++ madeAt more place := by
  rw [madeAt, List.filter_append, List.map_append]
  rfl

theorem madeAt_ofCall (place other : Nat) (written : List (UInt8 × Bytes)) :
    madeAt (ofCall place written) other = if other = place then written else [] := by
  induction written with
  | nil => simp [ofCall, madeAt]
  | cons first written ih =>
    obtain ⟨id, value⟩ := first
    rw [ofCall, List.map_cons, ← List.singleton_append, madeAt_append]
    refine (congrArg (madeAt _ other ++ ·) ih).trans ?_
    by_cases h : other = place
    · simp [madeAt, h]
    · simp [madeAt, h, Ne.symm h]

theorem IsLast.mem (h : IsLast log write) : write ∈ log := by
  obtain ⟨before, after, rfl, -⟩ := h
  simp

/-- The last write is either the newest one, or one of another setting than that. -/
theorem IsLast.of_concat {newest : SettingWrite} (h : IsLast (log ++ [newest]) write) :
    write = newest ∨ IsLast log write ∧ newest.id ≠ write.id := by
  obtain ⟨before, after, heq, hafter⟩ := h
  rcases List.eq_nil_or_concat after with rfl | ⟨after, last, rfl⟩
  · exact Or.inl (List.append_singleton_inj.mp heq).2.symm
  · rw [List.concat_eq_append, ← List.cons_append, ← List.append_assoc] at heq
    obtain ⟨rfl, rfl⟩ := List.append_singleton_inj.mp heq
    rw [List.concat_eq_append, List.forall_mem_append, List.forall_mem_singleton] at hafter
    exact Or.inr ⟨⟨before, after, rfl, hafter.1⟩, hafter.2⟩

theorem exists_isLast {id : UInt8} (h : ∃ write ∈ log, write.id = id) :
    ∃ write, write.id = id ∧ IsLast log write := by
  induction log using List.reverseRecOn with
  | nil => simp at h
  | append_singleton log newest ih =>
    by_cases hid : newest.id = id
    · exact ⟨newest, hid, log, [], rfl, by simp⟩
    · obtain ⟨write, hmem, hwrite⟩ := h
      have hlog : write ∈ log := by
        rcases List.mem_append.mp hmem with hmem | hmem
        · exact hmem
        · obtain rfl := List.mem_singleton.mp hmem
          exact absurd hwrite hid
      obtain ⟨last, hlast, before, after, rfl, hafter⟩ := ih ⟨write, hlog, hwrite⟩
      refine ⟨last, hlast, before, after ++ [newest], by simp, ?_⟩
      rw [List.forall_mem_append, List.forall_mem_singleton, hlast]
      exact ⟨hlast ▸ hafter, hid⟩

/-- Of two writes in a log, one comes before the other. -/
theorem eq_append_of_ne {before after before' after' : List SettingWrite}
    {first second : SettingWrite} (h : first ≠ second)
    (heq : before ++ first :: after = before' ++ second :: after') :
    (∃ between, after = between ++ second :: after') ∨ ∃ between, after' = between ++ first :: after := by
  rcases List.append_eq_append_iff.mp heq with ⟨gap, -, hgap⟩ | ⟨gap, -, hgap⟩
  · rcases gap with _ | ⟨write, gap⟩
    · exact absurd (List.cons.inj hgap).1 h
    · exact Or.inl ⟨gap, (List.cons.inj hgap).2⟩
  · rcases gap with _ | ⟨write, gap⟩
    · exact absurd (List.cons.inj hgap).1.symm h
    · exact Or.inr ⟨gap, (List.cons.inj hgap).2⟩

/-- A connection that has written its name writes its password after that. -/
theorem mem_after_of_madeAt {place : Nat} {ssid password : String}
    {before after : List SettingWrite}
    (h : madeAt (before ++ ⟨place, Store.ssidId, utf8 ssid⟩ :: after) place =
      WifiSetup.writes ssid password) :
    ⟨place, Store.passwordId, utf8 password⟩ ∈ after := by
  have hname : madeAt [⟨place, Store.ssidId, utf8 ssid⟩] place = [(Store.ssidId, utf8 ssid)] := by
    simp [madeAt]
  rw [← List.singleton_append, madeAt_append, madeAt_append, hname, WifiSetup.writes] at h
  -- the name is the first of the two writes, because it is not the password
  rcases hbefore : madeAt before place with _ | ⟨first, rest⟩
  · rw [hbefore] at h
    have hafter : madeAt after place = [(Store.passwordId, utf8 password)] := (List.cons.inj h).2
    rw [← mem_madeAt, hafter]
    exact List.mem_singleton_self _
  · rw [hbefore] at h
    have htail := (List.cons.inj h).2
    rcases rest with _ | ⟨second, rest⟩
    · exact absurd (Prod.mk.inj (List.cons.inj htail).1).1 (by decide)
    · simp at htail

/-- Where one connection has written the name last and another the password, the first has
    made both of its writes between the two of the other. -/
theorem nested_of_isLast {i j : Nat} (hij : i ≠ j) {ssid password ssid' password' : String}
    (hi : madeAt log i = WifiSetup.writes ssid password)
    (hj : madeAt log j = WifiSetup.writes ssid' password')
    (hname : IsLast log ⟨i, Store.ssidId, utf8 ssid⟩)
    (hpassword : IsLast log ⟨j, Store.passwordId, utf8 password'⟩) :
    [⟨j, Store.ssidId, utf8 ssid'⟩, ⟨i, Store.ssidId, utf8 ssid⟩,
      ⟨i, Store.passwordId, utf8 password⟩, ⟨j, Store.passwordId, utf8 password'⟩].Sublist log := by
  have hnamed : ⟨j, Store.ssidId, utf8 ssid'⟩ ∈ log := by
    rw [← mem_madeAt, hj]
    exact List.mem_cons_self
  obtain ⟨before, after, rfl, hafter⟩ := hname
  obtain ⟨before', after', heq, hafter'⟩ := hpassword
  -- the other's name came before the last one, and the own password came after that
  have hother : ⟨j, Store.ssidId, utf8 ssid'⟩ ∈ before := by
    rw [List.mem_append, List.mem_cons] at hnamed
    rcases hnamed with hmem | heq | hmem
    · exact hmem
    · exact absurd (SettingWrite.mk.inj heq).1.symm hij
    · exact (hafter _ hmem rfl).elim
  have hown := mem_after_of_madeAt hi
  -- and before the last password, which is not its own
  have hne : (⟨i, Store.ssidId, utf8 ssid⟩ : SettingWrite) ≠ ⟨j, Store.passwordId, utf8 password'⟩ :=
    fun heq => hij (SettingWrite.mk.inj heq).1
  rcases eq_append_of_ne hne heq with ⟨between, rfl⟩ | ⟨between, rfl⟩
  · have hbetween : ⟨i, Store.passwordId, utf8 password⟩ ∈ between := by
      rw [List.mem_append, List.mem_cons] at hown
      rcases hown with hmem | heq | hmem
      · exact hmem
      · exact absurd (SettingWrite.mk.inj heq).1 hij
      · exact (hafter' _ hmem rfl).elim
    exact (List.singleton_sublist.mpr hother).append <| .cons_cons _ <|
      (List.singleton_sublist.mpr hbetween).append <| .cons_cons _ (List.nil_sublist _)
  · exact (hafter' _ (List.mem_append_right _ (List.mem_cons_of_mem _ hown)) rfl).elim

end SettingWrite

/-! ## Connections by turns -/

namespace Traffic

/-- The connection at a place makes its next call, if it has one left: what it writes, and
    what becomes of the device and the connections. -/
def turn (traffic : Traffic) (place : Nat) : List SettingWrite × Traffic :=
  match traffic.connections[place]? with
  | some (.ask call next) =>
    let (reply, device) := Device.answer call traffic.device
    (SettingWrite.ofCall place call.written,
      ⟨device, traffic.connections.set place (next reply)⟩)
  | _ => ([], traffic)

/-- The connections take turns as scheduled. -/
def follow (traffic : Traffic) : List Nat → List SettingWrite × Traffic
  | [] => ([], traffic)
  | place :: schedule =>
    let (writes, between) := traffic.turn place
    let (later, after) := between.follow schedule
    (writes ++ later, after)

/-- No connection has a call left to make. -/
def Finished (traffic : Traffic) : Prop := ∀ connection ∈ traffic.connections, connection.isDone

end Traffic

/-! ## Posts that are served at once -/

/-- A connection on which credentials are posted. -/
structure Posting where
  limits : Limits
  transport : Transport
  ssid : String
  password : String
  posts : WifiSetup.Posts limits transport.source.delivered ssid password

/-- The settings that the connection writes. -/
def Posting.writes (posting : Posting) : List (UInt8 × Bytes) :=
  WifiSetup.writes posting.ssid posting.password

theorem Posting.ssid_mem_writes {posting : Posting} {value : Bytes} :
    (Store.ssidId, value) ∈ posting.writes ↔ value = utf8 posting.ssid := by
  simp [writes, WifiSetup.writes, Store.ssidId, Store.passwordId]

theorem Posting.password_mem_writes {posting : Posting} {value : Bytes} :
    (Store.passwordId, value) ∈ posting.writes ↔ value = utf8 posting.password := by
  simp [writes, WifiSetup.writes, Store.ssidId, Store.passwordId]

namespace Traffic

open SettingWrite

/-- Connections on which credentials are posted, none of them served yet. -/
def posted (registry : Registry) (depth : Nat) (device : Device) (postings : List Posting) :
    Traffic :=
  ⟨device, postings.map fun posting =>
    Site.serve ⟨registry, posting.limits⟩ depth posting.transport⟩

/-- What holds of a log while credentials are being written: each connection has made the
    first of its writes, and the last one of a setting is on the device. -/
structure Logged (postings : List Posting) (log : List SettingWrite) (traffic : Traffic) :
    Prop where
  registered : traffic.device.store.idCount Store.wifiDomain = some Store.wifiIdCount
  stored : ∀ write, IsLast log write → traffic.device.setting write.id = some write.value
  places : ∀ write ∈ log, write.place < postings.length
  length : traffic.connections.length = postings.length
  pending : ∀ place (posting : Posting) connection, postings[place]? = some posting →
    traffic.connections[place]? = some connection →
    ∃ later, madeAt log place ++ later = posting.writes ∧ Stores (fun _ => True) later connection

variable {postings : List Posting} {log : List SettingWrite} {traffic : Traffic}

theorem logged_posted {hostname banner : String} {maxPages depth : Nat} {device : Device}
    (hdomain : device.store.idCount Store.wifiDomain = some Store.wifiIdCount)
    (postings : List Posting) :
    Logged postings [] (posted (Portal.pages hostname banner maxPages) depth device postings) := by
  refine ⟨hdomain, fun write hlast => ?_, by simp, by simp [posted], ?_⟩
  · exact absurd hlast.mem (by simp)
  · intro place posting connection hposting hconnection
    rw [posted, List.getElem?_map, hposting] at hconnection
    obtain rfl := Option.some.inj hconnection
    exact ⟨posting.writes, rfl, Site.stores_serve rfl posting.posts⟩

/-- A turn writes down what it changes. -/
theorem Logged.turn (h : Logged postings log traffic) (place : Nat) :
    Logged postings (log ++ (traffic.turn place).1) (traffic.turn place).2 := by
  unfold Traffic.turn
  split
  · rename_i call next hcall
    obtain ⟨hlt, -⟩ := List.getElem?_eq_some_iff.mp hcall
    have hplace : place < postings.length := h.length ▸ hlt
    obtain ⟨later, hlater, hconfined, rest, rfl, hnext⟩ :=
      h.pending place postings[place] _ (List.getElem?_eq_getElem hplace) hcall
    have hsetting := Device.setting_answer h.registered hconfined
    refine ⟨?_, fun write hlast => ?_, ?_, ?_, ?_⟩
    · rw [Device.idCount_answer]
      exact h.registered
    · -- the write of this call is the last of its setting now, those of others stay the last
      rw [hsetting]
      rcases call.written_eq with hnone | ⟨id, value, hone⟩
      · rw [hnone, ofCall, List.map_nil, List.append_nil] at hlast
        rw [hnone]
        exact h.stored write hlast
      · rw [hone] at hlast ⊢
        rcases hlast.of_concat with rfl | ⟨hlast, hid⟩
        · simp
        · have hne : (write.id == id) = false := beq_false_of_ne hid.symm
          simpa [List.lookup_cons, hne] using h.stored write hlast
    · rw [List.forall_mem_append]
      refine ⟨h.places, fun write hwrite => ?_⟩
      obtain ⟨_, -, rfl⟩ := List.mem_map.mp hwrite
      exact hplace
    · simpa using h.length
    · -- one write less is left to the connection that made the call, and as many to the others
      intro other posting connection hposting hconnection
      rw [madeAt_append, madeAt_ofCall]
      by_cases hother : other = place
      · subst hother
        rw [List.getElem?_set_self hlt] at hconnection
        obtain rfl := Option.some.inj hconnection
        have hsame : postings[other] = posting :=
          Option.some.inj ((List.getElem?_eq_getElem hplace).symm.trans hposting)
        refine ⟨rest, ?_, hnext _ (Device.granted_answer h.registered hconfined)⟩
        rw [if_pos rfl, List.append_assoc, hlater, hsame]
      · rw [List.getElem?_set_ne (Ne.symm hother)] at hconnection
        rw [if_neg hother, List.append_nil]
        exact h.pending other posting connection hposting hconnection
  · rwa [List.append_nil]

theorem Logged.follow (h : Logged postings log traffic) (schedule : List Nat) :
    Logged postings (log ++ (traffic.follow schedule).1) (traffic.follow schedule).2 := by
  induction schedule generalizing log traffic with
  | nil => rwa [Traffic.follow, List.append_nil]
  | cons place schedule ih =>
    have hlater := ih (h.turn place)
    rwa [List.append_assoc] at hlater

/-- Connections that have finished have made all of their writes. -/
theorem Logged.madeAt_eq (h : Logged postings log traffic) (hfinished : traffic.Finished)
    {place : Nat} {posting : Posting} (hposting : postings[place]? = some posting) :
    madeAt log place = posting.writes := by
  obtain ⟨hlt, -⟩ := List.getElem?_eq_some_iff.mp hposting
  rw [← h.length] at hlt
  obtain ⟨later, hlater, hstores⟩ :=
    h.pending place posting _ hposting (List.getElem?_eq_getElem hlt)
  -- a program without a call left has no write left
  have hdone := hfinished _ (List.getElem_mem hlt)
  cases hconnection : traffic.connections[place] with
  | ask call next =>
    rw [hconnection] at hdone
    cases hdone
  | done outcome =>
    rw [hconnection] at hstores
    rw [← hlater, hstores.1, List.append_nil]

/-- What finished connections leave as a setting is the value that one of them wrote last. -/
theorem Logged.exists_last (h : Logged postings log traffic) (hfinished : traffic.Finished)
    (hne : postings ≠ []) {id : UInt8} {value : Posting → Bytes}
    (hwrites : ∀ posting written, (id, written) ∈ Posting.writes posting ↔ written = value posting) :
    ∃ place posting, postings[place]? = some posting ∧ IsLast log ⟨place, id, value posting⟩ ∧
      traffic.device.setting id = some (value posting) := by
  obtain ⟨posting, hposting⟩ := List.exists_mem_of_ne_nil postings hne
  obtain ⟨place, hlt, rfl⟩ := List.getElem_of_mem hposting
  have hmem : ⟨place, id, value postings[place]⟩ ∈ log := by
    rw [← mem_madeAt, h.madeAt_eq hfinished (List.getElem?_eq_getElem hlt), hwrites]
  obtain ⟨⟨last, id', written⟩, hid, hlast⟩ := exists_isLast ⟨_, hmem, rfl⟩
  obtain rfl : id' = id := hid
  have hplace : last < postings.length := h.places _ hlast.mem
  have hat := List.getElem?_eq_getElem hplace
  have hwritten := mem_madeAt.mpr hlast.mem
  rw [h.madeAt_eq hfinished hat, hwrites] at hwritten
  subst hwritten
  exact ⟨last, _, hat, hlast, h.stored _ hlast⟩

/-- Once all posts are served, the name on the device is that of the request whose name was
    written last, and the password that of the request whose password was. They are the pair
    of one request unless a connection made both of its writes between the two of another. -/
theorem pair_of_finished {registry : Registry} {hostname banner : String} {maxPages : Nat}
    (hregister : Portal.register hostname (.empty banner maxPages) = (.ok (), registry))
    {device : Device} (hdomain : device.store.idCount Store.wifiDomain = some Store.wifiIdCount)
    {postings : List Posting} (hne : postings ≠ []) (depth : Nat) (schedule : List Nat)
    (hfinished : ((posted registry depth device postings).follow schedule).2.Finished) :
    let log := ((posted registry depth device postings).follow schedule).1
    let after := ((posted registry depth device postings).follow schedule).2
    (∀ place (posting : Posting), postings[place]? = some posting →
      madeAt log place = posting.writes) ∧
    ∃ i j named secured, postings[i]? = some named ∧ postings[j]? = some secured ∧
      IsLast log ⟨i, Store.ssidId, utf8 named.ssid⟩ ∧
      IsLast log ⟨j, Store.passwordId, utf8 secured.password⟩ ∧
      after.device.setting Store.ssidId = some (utf8 named.ssid) ∧
      after.device.setting Store.passwordId = some (utf8 secured.password) ∧
      (i = j ∨
        [⟨j, Store.ssidId, utf8 secured.ssid⟩, ⟨i, Store.ssidId, utf8 named.ssid⟩,
          ⟨i, Store.passwordId, utf8 named.password⟩,
          ⟨j, Store.passwordId, utf8 secured.password⟩].Sublist log) := by
  obtain rfl := Portal.eq_pages_of_register hregister
  have hstart : Logged postings []
      (posted (Portal.pages hostname banner maxPages) depth device postings) :=
    logged_posted hdomain postings
  have hlogged := hstart.follow schedule
  rw [List.nil_append] at hlogged
  have hmade : ∀ place (posting : Posting), postings[place]? = some posting →
      madeAt _ place = posting.writes :=
    fun _ _ hposting => hlogged.madeAt_eq hfinished hposting
  obtain ⟨i, named, hnamed, hname, hssid⟩ :=
    hlogged.exists_last hfinished hne fun _ _ => Posting.ssid_mem_writes
  obtain ⟨j, secured, hsecured, hsecret, hpassword⟩ :=
    hlogged.exists_last hfinished hne fun _ _ => Posting.password_mem_writes
  refine ⟨hmade, i, j, named, secured, hnamed, hsecured, hname, hsecret, hssid, hpassword, ?_⟩
  by_cases hij : i = j
  · exact Or.inl hij
  · exact Or.inr (nested_of_isLast hij (hmade i named hnamed) (hmade j secured hsecured) hname
      hsecret)

/-- The posts of two browsers, one of which is served while the other waits. -/
theorem pair_of_finished_browsers :
    let device : Device := ⟨.withWifiDomain, ⟨[], none, true, false⟩, .initial⟩
    ∃ postings : List Posting,
      postings.map (fun posting => (posting.ssid, posting.password)) =
        [("HomeOne", "password1"), ("HomeTwo", "password2")] ∧
      let after := ((posted (Portal.pages "device" "Setup" 2) 1 device postings).follow
        [0, 1, 1, 1, 1, 1, 1, 0, 0, 0, 0, 0]).2
      after.Finished ∧ ∃ named ∈ postings, ∃ secured ∈ postings,
        after.device.setting Store.ssidId = some (utf8 named.ssid) ∧
          after.device.setting Store.passwordId = some (utf8 secured.password) := by
  intro device
  let first : Posting :=
    { limits := .standard
      transport := .ofBytes (utf8 ("POST /setwifi.html HTTP/1.1\r\n" ++
        "Content-Length: 32\r\n\r\nssid=HomeOne\r\npassword=password1"))
      ssid := "HomeOne"
      password := "password1"
      posts := ⟨⟨.post, "/setwifi.html", 32⟩, 51, by decide +kernel, rfl, by decide,
        by decide +kernel, by decide +kernel, by decide, by decide⟩ }
  let second : Posting :=
    { limits := .standard
      transport := .ofBytes (utf8 ("POST /setwifi.html HTTP/1.1\r\n" ++
        "Content-Length: 32\r\n\r\nssid=HomeTwo\r\npassword=password2"))
      ssid := "HomeTwo"
      password := "password2"
      posts := ⟨⟨.post, "/setwifi.html", 32⟩, 51, by decide +kernel, rfl, by decide,
        by decide +kernel, by decide +kernel, by decide, by decide⟩ }
  have hregister : Portal.register "device" (.empty "Setup" 2) =
      (.ok (), Portal.pages "device" "Setup" 2) := rfl
  refine ⟨[first, second], rfl, ?_⟩
  intro after
  have hfinished : after.Finished := by
    unfold Finished
    decide +kernel
  have hdomain : device.store.idCount Store.wifiDomain = some Store.wifiIdCount := rfl
  obtain ⟨-, i, j, named, secured, hnamed, hsecured, -, -, hssid, hpassword, -⟩ :=
    pair_of_finished hregister hdomain (List.cons_ne_nil first [second]) 1 _ hfinished
  exact ⟨hfinished, named, List.mem_of_getElem? hnamed, secured, List.mem_of_getElem? hsecured,
    hssid, hpassword⟩

/-- Two posts of which the first has not written its password when the second has written
    both: the device ends up with the name of the second and the password of the first. -/
theorem mixed_pair :
    let site : Site := ⟨Portal.pages "device" "Setup" 2, .standard⟩
    let device : Device := ⟨.withWifiDomain, ⟨[], none, true, false⟩, .initial⟩
    let first : Transport := .ofBytes (utf8 ("POST /setwifi.html HTTP/1.1\r\n" ++
      "Content-Length: 32\r\n\r\nssid=HomeOne\r\npassword=password1"))
    let second : Transport := .ofBytes (utf8 ("POST /setwifi.html HTTP/1.1\r\n" ++
      "Content-Length: 32\r\n\r\nssid=HomeTwo\r\npassword=password2"))
    let schedule := [0, 1, 1, 1, 1, 1, 1, 0, 0, 0, 0, 0]
    let after := (follow ⟨device, [site.serve 1 first, site.serve 1 second]⟩ schedule).2
    WifiSetup.Posts .standard first.source.delivered "HomeOne" "password1" ∧
      WifiSetup.Posts .standard second.source.delivered "HomeTwo" "password2" ∧
      after.Finished ∧
      ¬ ∃ pair ∈ [("HomeOne", "password1"), ("HomeTwo", "password2")],
        after.device.setting Store.ssidId = some (utf8 pair.1) ∧
          after.device.setting Store.passwordId = some (utf8 pair.2) := by
  intro site device first second schedule after
  refine ⟨⟨⟨.post, "/setwifi.html", 32⟩, 51, ?_⟩, ⟨⟨.post, "/setwifi.html", 32⟩, 51, ?_⟩, ?_, ?_⟩
  · exact ⟨by decide +kernel, rfl, by decide, by decide +kernel, by decide +kernel, by decide,
      by decide⟩
  · exact ⟨by decide +kernel, rfl, by decide, by decide +kernel, by decide +kernel, by decide,
      by decide⟩
  · unfold Finished
    decide +kernel
  · decide +kernel

end Traffic

end Provision
