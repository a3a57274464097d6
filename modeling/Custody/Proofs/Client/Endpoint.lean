import Custody.Client.SocketBroker
import Custody.Proofs.Service.Attachment
import Custody.Proofs.Service.Route
import Custody.Proofs.Session.Naming
/-!
# From the name of a ceremony to its channel

A client that is given the address of a service by itself (`Client.Origin`) asks that service for
the path of the channel, in whatever scheme the address is and however many slashes stand at its end
(`Client.Origin.target_ofUrl`). The service that is asked for this path attaches a receiver to the
channel of just this name (`Service.connect_subscribePath`). Names tell ceremonies apart, so no
ceremony is sent what belongs to another.
-/

namespace Custody

namespace Client

/-! ## Authorities -/

namespace Target

/-- A character that is taken in does not end an authority. -/
theorem Authority.ne_of_step {seen next : Authority} {c : Char} (h : seen.step c = .ok next) :
    c ≠ '/' ∧ endsPath c = false := by
  have hplain (hc : isPlain c = true) : c ≠ '/' ∧ endsPath c = false := by
    constructor
    · rintro rfl
      revert hc
      decide
    · rw [endsPath, Bool.or_eq_false_iff, decide_eq_false_iff_not, decide_eq_false_iff_not]
      constructor
      all_goals
        rintro rfl
        revert hc
        decide
  unfold step at h
  split at h
  case h_6 =>
    split at h
    · next hc => exact hplain hc
    · cases h
  all_goals exact ⟨by decide, by decide⟩

theorem Authority.ne_of_read {seen next : Authority} {text : List Char}
    (h : seen.read text = .ok next) : ∀ c ∈ text, c ≠ '/' ∧ endsPath c = false := by
  induction text generalizing seen with
  | nil => simp
  | cons c rest ih =>
    rw [read] at h
    split at h
    · cases h
    · next hstep =>
      intro d hd
      rcases List.mem_cons.1 hd with rfl | hd
      · exact ne_of_step hstep
      · exact ih h d hd

/-- No character of an authority ends it. -/
theorem ne_of_authorityFault? {text : List Char} (h : authorityFault? text = none) :
    ∀ c ∈ text, c ≠ '/' ∧ endsPath c = false := by
  unfold authorityFault? at h
  split at h
  · cases h
  · next hread => exact Authority.ne_of_read hread

theorem splitAuthority_append {authority path : List Char}
    (h : ∀ c ∈ authority, c ≠ '/' ∧ endsPath c = false) :
    splitAuthority (authority ++ '/' :: path) = (authority, '/' :: path) := by
  have hall : ∀ c ∈ authority, (!(decide (c = '/') || endsPath c)) = true := by
    intro c hc
    simp [h c hc]
  simp only [splitAuthority]
  rw [List.takeWhile_append_of_pos hall, List.dropWhile_append_of_pos hall]
  simp

theorem splitScheme?_append {scheme rest : List Char} (h : ∀ c ∈ scheme, isSchemeChar c = true) :
    splitScheme? (scheme ++ ':' :: '/' :: '/' :: rest) = some (scheme, rest) := by
  rw [splitScheme?, List.takeWhile_append_of_pos h, List.dropWhile_append_of_pos h]
  simp [isSchemeChar]

end Target

/-- The slashes at the end of an address go. -/
theorem trimSlashes_append {chars : List Char} (h : chars.getLast? ≠ some '/') (slashes : Nat) :
    trimSlashes (String.ofList (chars ++ List.replicate slashes '/')) = String.ofList chars := by
  have hkeep : chars.reverse.dropWhile (· == '/') = chars.reverse := by
    rw [← List.head?_reverse] at h
    cases hchars : chars.reverse with
    | nil => rfl
    | cons c rest =>
      rw [hchars, List.head?_cons, ne_eq, Option.some.injEq] at h
      rw [List.dropWhile_cons_of_neg (by simpa using h)]
  rw [trimSlashes, String.toList_ofList, List.reverse_append, List.reverse_replicate,
    List.dropWhile_append_of_pos (by simp), hkeep, List.reverse_reverse]

/-! ## Origins -/

/-- The schemes that a client can be given, each with the scheme of sockets that it stands for. -/
def schemes : List (String × String) :=
  [("http", "ws"), ("https", "wss"), ("ws", "ws"), ("wss", "wss")]

/-- The address of a service by itself: a scheme and an authority. -/
structure Origin where
  scheme : String
  socketScheme : String
  authority : List Char
  known : (scheme, socketScheme) ∈ schemes
  ne_nil : authority ≠ []
  fit : Target.authorityFault? authority = none

namespace Origin

/-- The address, with so many slashes at its end. -/
def url (origin : Origin) (slashes : Nat) : String :=
  String.ofList (origin.scheme.toList ++ "://".toList ++ origin.authority ++
    List.replicate slashes '/')

/-- The name of the peer in the address. -/
def host (origin : Origin) : String :=
  String.ofList (Target.splitNumber (Target.afterUser origin.authority)).1

variable (origin : Origin)

/-- The address that a client keeps has the scheme of sockets, and no slashes at its end. -/
theorem url_ofUrl (slashes : Nat) :
    (SocketBroker.ofUrl (origin.url slashes)).url =
      String.ofList (origin.socketScheme.toList ++ "://".toList ++ origin.authority) := by
  have hlast : (origin.scheme.toList ++ "://".toList ++ origin.authority).getLast? ≠ some '/' := by
    rw [List.getLast?_append_of_ne_nil _ origin.ne_nil]
    intro h
    exact (Target.ne_of_authorityFault? origin.fit _ (List.mem_of_getLast? h)).1 rfl
  have hsocket : SocketBroker.socketUrl
      (String.ofList (origin.scheme.toList ++ "://".toList ++ origin.authority)) =
        String.ofList (origin.socketScheme.toList ++ "://".toList ++ origin.authority) := by
    obtain ⟨scheme, socketScheme, authority, hknown, -, -⟩ := origin
    simp only [schemes, List.mem_cons, Prod.mk.injEq, List.not_mem_nil, or_false] at hknown
    rw [← String.toList_inj]
    rcases hknown with ⟨rfl, rfl⟩ | ⟨rfl, rfl⟩ | ⟨rfl, rfl⟩ | ⟨rfl, rfl⟩
    all_goals simp [SocketBroker.socketUrl]
  rw [SocketBroker.ofUrl, url, trimSlashes_append hlast, hsocket]

/-- The schemes of sockets are known to whoever reads the address. -/
theorem socketScheme_fit :
    (∀ c ∈ origin.socketScheme.toList, Target.isSchemeChar c = true) ∧
      origin.socketScheme.toList.length ≤ Target.schemeLimit ∧
      origin.socketScheme ∈ Target.socketSchemes := by
  have hall : ∀ pair ∈ schemes, pair.2.toList.all Target.isSchemeChar = true ∧
      pair.2.toList.length ≤ Target.schemeLimit ∧ pair.2 ∈ Target.socketSchemes := by
    decide
  obtain ⟨hchars, hlength, hknown⟩ := hall _ origin.known
  exact ⟨List.all_eq_true.1 hchars, hlength, hknown⟩

end Origin

/-! ## Paths -/

/-- The character stands for itself in a path. -/
theorem plain_of_mem_subscribePath {key : ChannelKey} {c : Char}
    (h : c ∈ (Service.subscribePath key.name).toList) :
    Target.endsPath c = false ∧ Target.isVisible c = true ∧ c ≠ '\x60' ∧ c ≠ '\x7f' := by
  have hstart : "/v1/subscribe/".toList.all (fun c => decide (Target.endsPath c = false ∧
      Target.isVisible c = true ∧ c ≠ '\x60' ∧ c ≠ '\x7f')) = true := by
    decide
  have hid : ∀ k < 128, isIdChar (Char.ofNat k) = true ∨ Char.ofNat k = ':' →
      Target.endsPath (Char.ofNat k) = false ∧ Target.isVisible (Char.ofNat k) = true ∧
        Char.ofNat k ≠ '\x60' ∧ Char.ofNat k ≠ '\x7f' := by
    decide +kernel
  rw [Service.subscribePath, String.toList_append, List.mem_append] at h
  rcases h with h | h
  · exact of_decide_eq_true (List.all_eq_true.1 hstart c h)
  · have hc := hid c.toNat (key.plain_of_mem h).2
    rw [Char.ofNat_toNat] at hc
    exact hc (key.isIdChar_of_mem h)

/-- What is behind the authority can be asked for as it stands. -/
theorem requestPath?_subscribePath (key : ChannelKey) :
    Target.isFitBehind (Service.subscribePath key.name).toList = true ∧
      Target.requestPath? (Service.subscribePath key.name).toList =
        some (Service.subscribePath key.name).toList := by
  have hplain : ∀ c ∈ (Service.subscribePath key.name).toList, Target.endsPath c = false ∧
      Target.isVisible c = true ∧ c ≠ '\x60' ∧ c ≠ '\x7f' :=
    fun _ => plain_of_mem_subscribePath
  have hne : (Service.subscribePath key.name).toList ≠ [] := by simp [Service.subscribePath]
  generalize (Service.subscribePath key.name).toList = path at hplain hne
  have hsplit : Target.splitQuery path = (path, []) := by
    have hends : ∀ c ∈ path, c ≠ '#' ∧ c ≠ '?' := by
      intro c hc
      have := (hplain c hc).1
      simp_all [Target.endsPath]
    have hnumber : path.takeWhile (· ≠ '#') = path :=
      List.takeWhile_eq_self_iff.2 fun c hc => by simpa using (hends c hc).1
    have hquery : path.takeWhile (· ≠ '?') = path :=
      List.takeWhile_eq_self_iff.2 fun c hc => by simpa using (hends c hc).2
    have hnone : path.dropWhile (· ≠ '?') = [] :=
      List.dropWhile_eq_nil_iff.2 fun c hc => by simpa using (hends c hc).2
    simp only [Target.splitQuery]
    rw [hnumber, hquery, hnone]
  constructor
  · rw [Target.isFitBehind, hsplit]
    simp only [List.all_nil, Bool.and_true, List.all_eq_true, Bool.and_eq_true,
      decide_eq_true_eq]
    exact fun c hc => ⟨(hplain c hc).2.1, (hplain c hc).2.2.1⟩
  · have hdelete : (path ++ []).contains '\x7f' = false := by
      rw [List.append_nil, List.contains_eq_mem, decide_eq_false_iff_not]
      exact fun hc => (hplain _ hc).2.2.2 rfl
    rw [Target.requestPath?, hsplit]
    split
    · next hnil => exact absurd (congrArg Prod.fst hnil) hne
    · next _ hnil => exact absurd (congrArg Prod.fst hnil) hne
    · next hpair =>
      obtain ⟨rfl, rfl⟩ := Prod.mk.inj hpair
      rw [if_neg (by rw [hdelete]; decide)]

/-- **What a client asks for.** -/
theorem Origin.target_ofUrl (origin : Origin) (slashes : Nat) (key : ChannelKey) :
    let client := SocketBroker.ofUrl (origin.url slashes)
    client.target key =
      if Target.referenceLimit < (client.endpoint key).utf8ByteSize then .error .tooLong
      else .ok ⟨origin.host, Service.subscribePath key.name⟩ := by
  intro client
  obtain ⟨hscheme, hlength, hknown⟩ := origin.socketScheme_fit
  obtain ⟨hfit, hpath⟩ := requestPath?_subscribePath key
  have hbehind : (Service.subscribePath key.name).toList =
      '/' :: ("v1/subscribe/".toList ++ key.name.toList) := by
    simp [Service.subscribePath]
  have hendpoint : (client.endpoint key).toList = origin.socketScheme.toList ++
      ':' :: '/' :: '/' :: (origin.authority ++ (Service.subscribePath key.name).toList) := by
    simp [client, SocketBroker.endpoint, origin.url_ofUrl, Service.subscribePath]
  have hsplit : Target.splitAuthority (origin.authority ++
      (Service.subscribePath key.name).toList) =
        (origin.authority, (Service.subscribePath key.name).toList) := by
    rw [hbehind, Target.splitAuthority_append (Target.ne_of_authorityFault? origin.fit)]
  rw [SocketBroker.target, Target.ofReference]
  refine if_congr Iff.rfl rfl ?_
  rw [hendpoint, Target.splitScheme?_append hscheme]
  simp only [hsplit, if_neg (Nat.not_lt.2 hlength), origin.fit, List.isEmpty_iff, origin.ne_nil,
    if_false, hfit, hpath, String.ofList_toList, hknown, host]
  simp

end Client

/-! ## Channels -/

/-- `Service.Opens service opened channel`: a socket has been opened whose receiver is attached to
the channel, and nothing else has been attached or detached. -/
structure Service.Opens (service opened : Service) (channel : String) : Prop where
  sockets : opened.sockets =
    service.sockets ++ [⟨service.next, service.hub.next, [], true⟩]
  receivers : opened.hub.receivers =
    service.hub.receivers ++ [⟨service.hub.next, channel, [], true⟩]
  count : ∀ name, opened.hub.subscriberCount name =
    service.hub.subscriberCount name + if name = channel then 1 else 0

/-- **What a request for a channel's path attaches to.** -/
theorem Service.connect_subscribePath (service : Service) (key : ChannelKey) :
    ∃ opened, service.connect (subscribePath key.name) = .ok (service.next, opened) ∧
      service.Opens opened key.name := by
  obtain ⟨hub, hsubscribe⟩ := service.hub.exists_subscribe key.valid_name
  have hreceivers : hub.receivers =
      service.hub.receivers ++ [⟨service.hub.next, key.name, [], true⟩] := by
    rw [Hub.subscribe, ChannelName.fault?_eq_none_iff.2 key.valid_name] at hsubscribe
    rw [← (Prod.mk.inj (Except.ok.inj hsubscribe)).2]
  refine ⟨⟨hub, service.sockets ++ [⟨service.next, service.hub.next, [], true⟩],
    service.next + 1⟩, ?_, rfl, hreceivers, fun name => ?_⟩
  · simp only [connect, handshake, destination_subscribePath, hsubscribe]
  · rw [Hub.subscriberCount, hreceivers, List.countP_append, ← Hub.subscriberCount]
    simp only [List.countP_singleton, Receiver.listensOn, Bool.true_and, beq_iff_eq,
      eq_comm (a := key.name)]

/-- **Names identify ceremonies and lead to them.** Two ids that are made for users and numbers have
the same channel name only for the same user, number and purpose. Every id that is read has, for
every purpose, a channel name that a hub accepts. A client that is given the address of a service by
itself asks that service for the path of this name, unless the address is too long to be one; and
every service that is asked for this path attaches a receiver to the channel of just this name. -/
theorem ChannelKey.name_identifies_and_routes :
    (∀ user user' nonce nonce' id id' purpose purpose',
      SessionId.ofUser user nonce = .ok id → SessionId.ofUser user' nonce' = .ok id' →
        name ⟨purpose, id⟩ = name ⟨purpose', id'⟩ →
          user = user' ∧ nonce = nonce' ∧ purpose = purpose') ∧
    ∀ text id purpose, SessionId.ofText text = .ok id →
      let key : ChannelKey := ⟨purpose, id⟩
      ChannelName.fault? key.name = none ∧
      (∀ (origin : Client.Origin) (slashes : Nat),
        let client := Client.SocketBroker.ofUrl (origin.url slashes)
        client.target key =
          if Client.Target.referenceLimit < (client.endpoint key).utf8ByteSize then .error .tooLong
          else .ok ⟨origin.host, Service.subscribePath key.name⟩) ∧
      ∀ service : Service, ∃ opened,
        service.connect (Service.subscribePath key.name) = .ok (service.next, opened) ∧
          service.Opens opened key.name := by
  refine ⟨fun user user' nonce nonce' id id' purpose purpose' h h' hname => ?_,
    fun text id purpose _ => ⟨?_, fun origin slashes => ?_, fun service => ?_⟩⟩
  · obtain ⟨rfl, rfl⟩ := ChannelKey.mk.inj (name_injective hname)
    obtain ⟨huser, hnonce⟩ := SessionId.ofUser_inj h h'
    exact ⟨huser, hnonce, rfl⟩
  · exact ChannelName.fault?_eq_none_iff.2 (valid_name _)
  · exact origin.target_ofUrl slashes _
  · exact service.connect_subscribePath _

/-- The id of the twelfth ceremony of a user whose name ends in a number. -/
def aliceId : SessionId :=
  ⟨"alice-3-12", by decide, by decide, by decide⟩

/-- The address of a service, with the number of a port. -/
def Client.Origin.broker : Client.Origin :=
  ⟨"http", "ws", "broker:8080".toList, by decide, by decide, by decide⟩

/-- A user with a hyphen and a digit, whose channel is none of a user whose name is the start of
this name, and an address with slashes at its end. -/
theorem ChannelKey.name_identifies_and_routes_of_alice :
    SessionId.ofUser "alice-3" 12 = .ok aliceId ∧
    (∀ nonce id, SessionId.ofUser "alice" nonce = .ok id →
      name ⟨.sign, id⟩ ≠ name ⟨.sign, aliceId⟩) ∧
    (Client.SocketBroker.ofUrl "http://broker:8080//").target ⟨.sign, aliceId⟩ =
      .ok ⟨"broker", "/v1/subscribe/sign:alice-3-12"⟩ ∧
    ∃ opened, (Service.new .standard).connect "/v1/subscribe/sign:alice-3-12" = .ok (0, opened) ∧
      (Service.new .standard).Opens opened "sign:alice-3-12" := by
  have hid : SessionId.ofUser "alice-3" 12 = .ok aliceId := by decide
  have hother (nonce : UInt64) (id : SessionId) (h : SessionId.ofUser "alice" nonce = .ok id) :
      name ⟨.sign, id⟩ ≠ name ⟨.sign, aliceId⟩ := by
    intro hname
    obtain ⟨huser, -, -⟩ := name_identifies_and_routes.1 _ _ _ _ _ _ _ _ h hid hname
    exact absurd huser (by decide)
  obtain ⟨-, htarget, hconnect⟩ :=
    name_identifies_and_routes.2 "alice-3-12" aliceId .sign (SessionId.ofText_text aliceId)
  exact ⟨hid, hother, htarget .broker 2, hconnect (Service.new .standard)⟩

end Custody
