import FleetControl.Proofs.Requests
import FleetControl.Proofs.Runs
import FleetControl.Store.Outage

/-!
# The gate of the administration

A request to a route of the administration must bring the key of the service, where there is one, and name its actor. One that does
not is answered before anything is asked of the store (`Http.asked_of_anonymous`): it is turned away as unauthenticated, or it could
not even be read. So its response is the same whatever is stored.
-/

namespace FleetControl.Http

/-- The route is one of the administration. -/
def Route.isAdministrative : Route → Bool
  | .queries | .queryActions | .carves | .nodeActions | .users | .userPermissions _ | .userAdmin _ | .environmentStats _ => true
  | .health | .enroll | .nodeConfig | .nodeQueries | .nodeResults => false

namespace Request

/-- The first header of a name spells a text: with a byte for each character, all of them visible characters, spaces or tabs. -/
def Brings (r : Request) (name text : String) : Prop :=
  ∃ bytes, r.headers.lookup name = some bytes ∧ bytes.map UInt8.toNat = text.toList.map Char.toNat ∧
    ∀ c ∈ text.toList, c = '\t' ∨ ' ' ≤ c ∧ c ≤ '~'

/-- The request does not tell who asks: it does not bring the key of the service, where there is one, or it names no actor. -/
def Anonymous (settings : Settings) (r : Request) : Prop :=
  (∃ key, settings.apiKey = some key ∧ ¬r.Brings "x-api-key" key) ∨ ∀ name, r.Brings "x-fleet-user" name → Text.trim name = ""

/-- The byte of a visible character, a space or a tab. -/
theorem isReadable_byte_iff (b : UInt8) :
    ((0x20 ≤ b && b < 0x7F) || b == 0x09) = true ↔ b.toNat = 9 ∨ 32 ≤ b.toNat ∧ b.toNat ≤ 126 := by
  rw [Bool.or_eq_true, Bool.and_eq_true, decide_eq_true_eq, decide_eq_true_eq, beq_iff_eq, UInt8.le_iff_toNat_le,
    UInt8.lt_iff_toNat_lt, ← UInt8.toNat_inj]
  change (32 ≤ b.toNat ∧ b.toNat < 127) ∨ b.toNat = 9 ↔ _
  omega

/-- A visible character, a space or a tab by its code. -/
theorem isReadable_char_iff (c : Char) : (c = '\t' ∨ ' ' ≤ c ∧ c ≤ '~') ↔ c.toNat = 9 ∨ 32 ≤ c.toNat ∧ c.toNat ≤ 126 := by
  rw [← Char.toNat_inj]
  rfl

/-- The codes of the characters that readable bytes stand for are these bytes. -/
theorem map_toNat_map_ofNat {bytes : Bytes} (h : ∀ b ∈ bytes, b.toNat = 9 ∨ 32 ≤ b.toNat ∧ b.toNat ≤ 126) :
    (bytes.map fun b => Char.ofNat b.toNat).map Char.toNat = bytes.map UInt8.toNat := by
  rw [List.map_map]
  refine List.map_congr_left ?_
  intro b hb
  have hbound := h b hb
  exact Text.toNat_ofNat_of_valid (Or.inl (by omega))

/-- A header can be read as the text that it spells, and as no other. -/
theorem header?_eq_some_iff (r : Request) (name text : String) : r.header? name = some text ↔ r.Brings name text := by
  unfold header? Brings
  rw [Option.bind_eq_bind, Option.bind_eq_some_iff]
  refine exists_congr fun bytes => and_congr_right fun _ => ?_
  rw [Option.ite_none_right_eq_some, List.all_eq_true]
  simp only [isReadable_byte_iff, isReadable_char_iff]
  constructor
  · rintro ⟨hbytes, htext⟩
    cases htext
    have hcodes := map_toNat_map_ofNat hbytes
    rw [String.toList_ofList]
    refine ⟨hcodes.symm, ?_⟩
    intro c hc
    obtain ⟨b, hb, hcode⟩ := List.mem_map.mp (hcodes ▸ List.mem_map_of_mem hc)
    rw [← hcode]
    exact hbytes b hb
  · rintro ⟨hcodes, hchars⟩
    have hbytes : ∀ b ∈ bytes, b.toNat = 9 ∨ 32 ≤ b.toNat ∧ b.toNat ≤ 126 := by
      intro b hb
      obtain ⟨c, hc, hcode⟩ := List.mem_map.mp (hcodes ▸ List.mem_map_of_mem hb)
      rw [← hcode]
      exact hchars c hc
    refine ⟨hbytes, congrArg some ?_⟩
    have hchars : (bytes.map fun b => Char.ofNat b.toNat) = text.toList :=
      List.map_injective_iff.mpr (fun _ _ => Char.toNat_inj.mp) ((map_toNat_map_ofNat hbytes).trans hcodes)
    rw [hchars, String.ofList_toList]

end Request

/-- The actor of a request is the one that it names, where it brings the key of the service, if there is one. -/
theorem actor_eq_ok_iff (settings : Settings) (r : Request) (name : String) :
    actor settings r = .ok name ↔
      (∀ key, settings.apiKey = some key → r.Brings "x-api-key" key) ∧
        ∃ text, r.Brings "x-fleet-user" text ∧ Text.trim text = name ∧ name ≠ "" := by
  simp only [← Request.header?_eq_some_iff]
  unfold actor
  have hkey : (settings.apiKey.isSome ∧ r.header? "x-api-key" ≠ settings.apiKey) ↔
      ¬∀ key, settings.apiKey = some key → r.header? "x-api-key" = some key := by
    cases settings.apiKey <;> simp
  by_cases hbrings : ∀ key, settings.apiKey = some key → r.header? "x-api-key" = some key
  · rw [if_neg (mt hkey.mp (not_not_intro hbrings))]
    cases r.header? "x-fleet-user" with
    | none => simp
    | some text =>
      dsimp only
      split
      · rename_i hblank
        refine iff_of_false (by rintro ⟨⟩) ?_
        rintro ⟨-, _, ⟨⟩, rfl, hname⟩
        exact hname (String.isEmpty_iff.mp hblank)
      · rename_i hblank
        constructor
        · rintro ⟨⟩
          exact ⟨hbrings, text, rfl, rfl, mt String.isEmpty_iff.mpr hblank⟩
        · rintro ⟨-, _, ⟨⟩, rfl, -⟩
          rfl
  · rw [if_pos (hkey.mpr hbrings)]
    exact iff_of_false (by rintro ⟨⟩) fun h => hbrings h.1

/-- A request without an actor is refused as unauthenticated. -/
theorem of_actor_eq_error {settings : Settings} {r : Request} {why : Refusal} (h : actor settings r = .error why) :
    why = .unauthenticated := by
  unfold actor at h
  split at h
  · cases h
    rfl
  · split at h
    · split at h
      · cases h
        rfl
      · cases h
    · cases h
      rfl

/-- A request that does not tell who asks has no actor. -/
theorem actor_of_anonymous {settings : Settings} {r : Request} (h : r.Anonymous settings) :
    actor settings r = .error .unauthenticated := by
  cases hactor : actor settings r with
  | error why => rw [of_actor_eq_error hactor]
  | ok name =>
    exfalso
    obtain ⟨hkey, text, htext, htrim, hname⟩ := (actor_eq_ok_iff settings r name).mp hactor
    rcases h with ⟨key, hsome, hbrings⟩ | hblank
    · exact hbrings (hkey key hsome)
    · exact hname (htrim ▸ hblank text htext)

/-! ## How a request is turned away -/

/-- The status of the response blames the client. -/
def Response.BlamesClient (response : Response) : Prop := 400 ≤ response.status ∧ response.status < 500

instance (response : Response) : Decidable response.BlamesClient := inferInstanceAs (Decidable (_ ∧ _))

/-- The response to a request that is not handed on: its method is not allowed, or what it brings cannot be read. -/
def Response.IsRejection (response : Response) : Prop :=
  response.status ∈ [400, 405, 413, 415, 422] ∧ response.payload ∈ [.nothing, .plain]

instance (response : Response) : Decidable response.IsRejection := inferInstanceAs (Decidable (_ ∧ _))

/-- The response turns a request away: as unauthenticated, or without handing it on. -/
def Response.TurnsAway (response : Response) : Prop := response.status = 401 ∨ response.IsRejection

namespace Response.TurnsAway

variable {response : Response}

/-- What turns a request away blames the client. -/
theorem blamesClient (h : response.TurnsAway) : response.BlamesClient := by
  unfold BlamesClient
  rcases h with h | ⟨h, -⟩
  · omega
  · simp only [List.mem_cons, List.not_mem_nil, or_false] at h
    omega

theorem headersOnly (h : response.TurnsAway) : response.headersOnly.TurnsAway :=
  h.imp id fun h => ⟨h.1, List.mem_cons_self⟩

theorem unauthenticated : (ofRefusal .unauthenticated).TurnsAway := Or.inl rfl

end Response.TurnsAway

section Reading

variable {response : Response}

/-- A body that cannot be read turns its request away. -/
theorem turnsAway_of_readBody {α : Type} {format : Json.Format α} {r : Request} (h : readBody format r = .error response) :
    response.TurnsAway := by
  unfold readBody at h
  split at h
  · cases h
    exact .inr (by decide)
  · split at h
    · cases h
      exact .inr (by decide)
    · split at h
      · cases h
      · cases h
        exact .inr (by decide)
      · cases h
        exact .inr (by decide)

/-- A name that cannot be read turns its request away. -/
theorem turnsAway_of_readName {part : String} (h : readName part = .error response) : response.TurnsAway := by
  unfold readName at h
  split at h
  · cases h
  · cases h
    exact .inr (by decide)

/-- A query string that cannot be read turns its request away. -/
theorem turnsAway_of_readListing {r : Request} (h : readListing r = .error response) : response.TurnsAway := by
  unfold readListing at h
  split at h
  · cases h
  · cases h
  · cases h
    exact .inr (by decide)

/-- A body that goes with a name turns its request away where either cannot be read. -/
theorem turnsAway_of_readBoth {α : Type} {format : Json.Format α} {part : String} {r : Request}
    (h : (do return (← readName part, ← readBody format r) : Except Response (String × α)) = .error response) :
    response.TurnsAway := by
  cases hname : readName part with
  | error response' =>
    rw [hname] at h
    cases h
    exact turnsAway_of_readName hname
  | ok name =>
    cases hbody : readBody format r with
    | error response' =>
      rw [hname, hbody] at h
      cases h
      exact turnsAway_of_readBody hbody
    | ok body =>
      rw [hname, hbody] at h
      cases h

end Reading

/-! ## Requests without an actor -/

/-- Where a request is not understood without an actor, it is turned away, and always alike: what cannot be read goes before. -/
theorem turnsAway_of_unauthenticated {α : Type} {read : Except Response α}
    (hread : ∀ response, read = .error response → response.TurnsAway) {understood : QueryName.Token → α → Except Refusal Operation}
    (h : ∀ token a, understood token a = .error .unauthenticated) :
    ∃ response : Response, response.TurnsAway ∧
      ∀ token, (read >>= fun a => refusing (understood token a)) = .error response := by
  cases hresult : read with
  | error response => exact ⟨response, hread response hresult, fun _ => rfl⟩
  | ok a =>
    refine ⟨.ofRefusal .unauthenticated, .unauthenticated, ?_⟩
    intro token
    change refusing (understood token a) = _
    rw [h token a]
    rfl

section Unauthenticated

variable {settings : Settings} {r : Request} {route : Route} (hroute : route.isAdministrative = true)
  (hactor : actor settings r = .error .unauthenticated)

include hactor in
/-- Nothing is understood without the actor. -/
theorem actor_bind_of_unauthenticated (understood : String → Except Refusal Operation) :
    (actor settings r >>= understood) = .error .unauthenticated := by
  rw [hactor]
  rfl

include hroute hactor

/-- A request that reads a route of the administration is turned away where it has no actor. -/
theorem askedGet_of_unauthenticated :
    ∃ response : Response, response.TurnsAway ∧ ∀ _ : QueryName.Token, askedGet settings r route = .error response := by
  have hnone := actor_bind_of_unauthenticated hactor
  cases route with
  | health | enroll | nodeConfig | nodeQueries | nodeResults => cases hroute
  | queries => exact turnsAway_of_unauthenticated (fun _ => turnsAway_of_readListing) fun _ listing => hnone _
  | environmentStats environment => exact turnsAway_of_unauthenticated (fun _ => turnsAway_of_readName) fun _ name => hnone _
  | _ => exact ⟨⟨405, .nothing⟩, .inr (by decide), fun _ => rfl⟩

/-- A request that writes to a route of the administration is turned away where it has no actor. -/
theorem askedPost_of_unauthenticated :
    ∃ response : Response, response.TurnsAway ∧ ∀ token, askedPost settings token r route = .error response := by
  have hnone := actor_bind_of_unauthenticated hactor
  cases route with
  | health | enroll | nodeConfig | nodeQueries | nodeResults => cases hroute
  | queries | queryActions | carves | nodeActions | users =>
    exact turnsAway_of_unauthenticated (fun _ => turnsAway_of_readBody) fun _ body => hnone _
  | userPermissions username | userAdmin username =>
    exact turnsAway_of_unauthenticated (fun _ => turnsAway_of_readBoth) fun _ body => hnone _
  | environmentStats environment => exact ⟨⟨405, .nothing⟩, .inr (by decide), fun _ => rfl⟩

end Unauthenticated

/-- A request to a route of the administration that does not tell who asks is turned away before it asks anything. -/
theorem asked_of_anonymous {settings : Settings} {r : Request} {route : Route} (hroute : Route.ofPath? r.parts.1 = some route)
    (hadministrative : route.isAdministrative = true) (hanonymous : r.Anonymous settings) :
    ∃ response : Response, response.TurnsAway ∧ ∀ token, asked settings token r = .error response := by
  have hactor := actor_of_anonymous hanonymous
  unfold asked
  rw [hroute]
  dsimp only
  cases route.use? r.method with
  | none => exact ⟨⟨405, .nothing⟩, .inr (by decide), fun _ => rfl⟩
  | some use =>
    cases use with
    | get =>
      obtain ⟨response, haway, hasked⟩ := askedGet_of_unauthenticated hadministrative hactor
      refine ⟨response, haway, ?_⟩
      intro token
      rw [hasked token]
      rfl
    | head =>
      obtain ⟨response, haway, hasked⟩ := askedGet_of_unauthenticated hadministrative hactor
      refine ⟨response.headersOnly, haway.headersOnly, ?_⟩
      intro token
      rw [hasked token]
      rfl
    | post =>
      obtain ⟨response, haway, hasked⟩ := askedPost_of_unauthenticated hadministrative hactor
      refine ⟨response, haway, ?_⟩
      intro token
      rw [hasked token]
      rfl

/-- A caller who does not tell who asks learns nothing. A request to a route of the administration without the right key, or
without the name of a user, gets one response from all stores at all times, which blames the client and writes nothing. -/
theorem turned_away_alike (settings : Settings) (r : Request) (route : Route) (hroute : Route.ofPath? r.parts.1 = some route)
    (hadministrative : route.isAdministrative = true) (hanonymous : r.Anonymous settings) :
    ∃ response : Response,
      (response.status = 401 ∨ response.IsRejection) ∧ response.BlamesClient ∧
      ∀ token time,
        (∀ s, (serve settings token r).run time s = (.ok response, s)) ∧
        ∀ backend, (serve settings token r).runOn time backend = (.ok response, backend) := by
  obtain ⟨response, haway, hasked⟩ := asked_of_anonymous hroute hadministrative hanonymous
  refine ⟨response, haway, haway.blamesClient, ?_⟩
  intro token time
  have hserve : serve settings token r = pure response := by
    rw [serve_eq, hasked token]
    rfl
  rw [hserve]
  exact ⟨fun s => rfl, fun backend => rfl⟩

/-- A request to remove a node brings the key of the service, but another one before it. It is answered alike whether the node is
enrolled or not. -/
theorem turned_away_alike_by_second_key :
    let settings : Settings := { Settings.embedded ["prod"] with apiKey := some "k" }
    let r : Request :=
      { method := "POST", target := "/api/v1/nodes/actions",
        headers := [("content-type", Utf8.encode "application/json"), ("x-api-key", Utf8.encode "j"),
          ("x-api-key", Utf8.encode "k"), ("x-fleet-user", Utf8.encode "root")],
        body := Utf8.encode "\x7b\"action\":\"delete\",\"uuids\":[\"a-1\"]\x7d" }
    let s := Operation.replay settings .empty
      [(0, .ensureAdmin "root"), (1, .enroll "a-1" "key" { Attributes.blank with environment := "prod" })]
    s.nodes ≠ [] ∧
      (serve settings 0 r).run 2 .empty = (.ok ⟨401, .refusal "authentication failed"⟩, .empty) ∧
      (serve settings 0 r).run 2 s = (.ok ⟨401, .refusal "authentication failed"⟩, s) := by
  intro settings r s
  have hanonymous : r.Anonymous settings := by
    refine Or.inl ⟨"k", rfl, ?_⟩
    rw [← Request.header?_eq_some_iff]
    decide +kernel
  obtain ⟨response, -, -, hserve⟩ := turned_away_alike settings r .nodeActions (by decide +kernel) rfl hanonymous
  have hresponse : ((serve settings 0 r).run 2 .empty).1.toOption = some ⟨401, .refusal "authentication failed"⟩ := by
    decide +kernel
  rw [(hserve 0 2).1] at hresponse
  cases hresponse
  exact ⟨by decide +kernel, (hserve 0 2).1 .empty, (hserve 0 2).1 s⟩

end FleetControl.Http
