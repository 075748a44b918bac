import FleetControl.Http.Service
import FleetControl.Proofs.Programs

/-!
# What a request asks

A request is answered at once, or it asks one operation and is answered by the outcome of that (`Http.serve_eq`). What is asked
can be told from the request and the settings alone. An administrative operation is asked for the actor that the request names.
-/

namespace FleetControl

/-- The administrator that an operation is asked for. -/
def Operation.actor? : Operation → Option String
  | .authorize _ _ _ | .enroll _ _ _ | .updateMetadata _ _ | .updateAddress _ _ | .poll _ | .submitResult _ _ _
  | .submitResults _ _ | .ensureAdmin _ => none
  | .createQuery _ actor _ _ _ | .createCarve _ actor _ _ | .listQueries actor _ | .queryAction actor _ _
  | .nodeAction actor _ _ | .addUser actor _ | .setAdmin actor _ _ | .setPermissions actor _ _ | .nodeStats actor _ =>
    some actor

namespace Http

/-- A result, or the response to the refusal in its place. -/
def refusing {α : Type} (e : Except Refusal α) : Except Response α := e.mapError .ofRefusal

/-- What a request that reads a route asks, unless it is answered at once. -/
def askedGet (settings : Settings) (r : Request) : Route → Except Response Operation
  | .health => .error ⟨200, .health⟩
  | .queries => do
    let listing ← readListing r
    refusing do
      let name ← actor settings r
      let listing ← (listing.map Listing.parse).getD (.ok .active)
      return .listQueries name listing
  | .environmentStats environment => do
    let environment ← readName environment
    refusing do return .nodeStats (← actor settings r) environment
  | _ => .error ⟨405, .nothing⟩

/-- What a request that writes to a route asks, unless it is answered at once. -/
def askedPost (settings : Settings) (token : QueryName.Token) (r : Request) : Route → Except Response Operation
  | .enroll => do
    let body ← readBody enrollBody r
    refusing do return .enroll body.1.uuid body.1.key body.2
  | .nodeConfig => do
    let body ← readBody observationBody r
    refusing do return .updateMetadata body.1 body.2
  | .nodeQueries => do
    let key ← readBody nodeBody r
    refusing do return .poll key
  | .nodeResults => do
    let body ← readBody resultsBody r
    refusing do return .submitResults body.key body.statuses
  | .queries => do
    let body ← readBody queryBody r
    refusing do
      let name ← actor settings r
      let kind ← (body.kind.map QueryKind.parse).getD (.ok .standard)
      let targets ← Target.parseAll body.targets
      return .createQuery token name body.text targets kind
  | .queryActions => do
    let body ← readBody queryActionBody r
    refusing do
      let name ← actor settings r
      let action ← QueryAction.parse body.action
      return .queryAction name action body.names
  | .carves => do
    let body ← readBody carveBody r
    refusing do
      let name ← actor settings r
      let targets ← Target.parseAll body.targets
      return .createCarve token name body.path targets
  | .nodeActions => do
    let body ← readBody nodeActionBody r
    refusing do
      let name ← actor settings r
      let action ← chosenAction body
      return .nodeAction name action body.uuids
  | .users => do
    let account ← readBody Wire.accountFormat r
    refusing do return .addUser (← actor settings r) account
  | .userPermissions username => do
    let body ← (do return (← readName username, ← readBody Wire.permissionsFormat r))
    refusing do return .setPermissions (← actor settings r) body.1 body.2
  | .userAdmin username => do
    let body ← (do return (← readName username, ← readBody adminBody r))
    refusing do return .setAdmin (← actor settings r) body.1 body.2
  | .health | .environmentStats _ => .error ⟨405, .nothing⟩

/-- The response that tells the answer of an operation. -/
def told : Operation → Answer → Response
  | .createQuery _ _ _ _ _, a | .createCarve _ _ _ _, a => .created a
  | .queryAction _ _ _, _ | .setAdmin _ _ _, _ | .setPermissions _ _ _, _ => .noContent
  | .addUser _ _, _ => ⟨201, .nothing⟩
  | _, a => .ok a

/-- The response that tells the outcome of an operation. -/
def outcome (op : Operation) : Except Refusal Answer → Response
  | .ok a => told op a
  | .error why => .ofRefusal why

/-- What a request asks and how the outcome is told, unless the request is answered at once. -/
def asked (settings : Settings) (token : QueryName.Token) (r : Request) :
    Except Response (Operation × (Except Refusal Answer → Response)) :=
  match Route.ofPath? r.parts.1 with
  | none => .error ⟨404, .nothing⟩
  | some route =>
    match route.use? r.method with
    | none => .error ⟨405, .nothing⟩
    | some .get => (askedGet settings r route).map fun op => (op, outcome op)
    | some .head =>
      ((askedGet settings r route).map fun op => (op, fun o => (outcome op o).headersOnly)).mapError Response.headersOnly
    | some .post => (askedPost settings token r route).map fun op => (op, outcome op)

/-- The response at once, or that of the outcome of what is asked. -/
def respond (settings : Settings) : Except Response (Operation × (Except Refusal Answer → Response)) → Program Response
  | .error response => pure response
  | .ok (op, tell) => tell <$> (op.program settings).attempt

/-- Where the request can be read, the outcome of the program is told. -/
theorem answering_ok {α : Type} (a : α) {program : α → Program Response} {op : Operation} {p : Program Answer}
    (h : program a = told op <$> p) : answering (.ok a) program = outcome op <$> p.attempt := by
  unfold answering
  dsimp only
  rw [h]
  clear h
  induction p with
  | done b => rfl
  | stop why => cases why <;> rfl
  | clock next ih => exact congrArg Program.clock (funext fun now => ih now)
  | call c next ih => exact congrArg (Program.call c) (funext fun reply => ih reply)

/-- Where the program is refused at once, the refusal is told. -/
theorem answering_refused {α : Type} (a : α) {program : α → Program Response} {why : Refusal}
    (h : program a = .refuse why) : answering (.ok a) program = pure (.ofRefusal why) := by
  unfold answering
  dsimp only
  rw [h]
  rfl

/-- What is read and then understood as an operation is answered by the outcome of that operation. -/
theorem answering_eq {α : Type} (settings : Settings) {read : Except Response α} {program : α → Program Response}
    {understood : α → Except Refusal Operation}
    (h : ∀ a, program a = Program.ofExcept (understood a) >>= fun op => told op <$> op.program settings) :
    answering read program =
      respond settings ((read >>= fun a => refusing (understood a)).map fun op => (op, outcome op)) := by
  cases read with
  | error response => rfl
  | ok a =>
    have ha := h a
    change _ = respond settings ((refusing (understood a)).map fun op => (op, outcome op))
    cases hop : understood a with
    | error why =>
      rw [hop] at ha
      exact answering_refused a ha
    | ok op =>
      rw [hop] at ha
      exact answering_ok a ha

/-- A program whose answer is wrapped and told. -/
theorem told_map {β : Type} (op : Operation) (wrap : β → Answer) (p : Program β) :
    told op <$> wrap <$> p = p >>= fun b => pure (told op (wrap b)) := by
  rw [Functor.map_map, map_eq_pure_bind]

theorem answerGet_eq (settings : Settings) (r : Request) (route : Route) :
    answerGet settings r route = respond settings ((askedGet settings r route).map fun op => (op, outcome op)) := by
  cases route with
  | queries =>
    rw [answerGet, askedGet]
    refine answering_eq settings ?_
    intro listing
    simp only [Program.ofExcept_bind, bind_assoc, Program.ofExcept_pure, pure_bind, Operation.program, told_map, told]
  | environmentStats environment =>
    rw [answerGet, askedGet]
    refine answering_eq settings ?_
    intro environment
    simp only [Program.ofExcept_bind, bind_assoc, Program.ofExcept_pure, pure_bind, Operation.program, told_map, told]
  | _ => rfl

theorem answerPost_eq (settings : Settings) (token : QueryName.Token) (r : Request) (route : Route) :
    answerPost settings token r route = respond settings ((askedPost settings token r route).map fun op => (op, outcome op)) := by
  cases route with
  | health => rfl
  | environmentStats environment => rfl
  | _ =>
    rw [answerPost, askedPost]
    refine answering_eq settings ?_
    intro body
    simp only [Program.ofExcept_bind, bind_assoc, Program.ofExcept_pure, pure_bind, Operation.program, told_map, told]

/-- A request is answered at once, or by the outcome of the operation it asks. -/
theorem serve_eq (settings : Settings) (token : QueryName.Token) (r : Request) :
    serve settings token r = respond settings (asked settings token r) := by
  unfold serve asked
  cases Route.ofPath? r.parts.1 with
  | none => rfl
  | some route =>
    dsimp only
    cases route.use? r.method with
    | none => rfl
    | some use =>
      cases use with
      | get => exact answerGet_eq settings r route
      | post => exact answerPost_eq settings token r route
      | head =>
        dsimp only
        rw [answerGet_eq]
        cases askedGet settings r route with
        | error response => rfl
        | ok op =>
          change (outcome op <$> (op.program settings).attempt >>= fun response => pure response.headersOnly) =
            (fun o => (outcome op o).headersOnly) <$> (op.program settings).attempt
          simp only [map_eq_pure_bind, bind_assoc, pure_bind]

/-- A request that asks an operation leaves the store as the operation does. -/
theorem run_serve_of_asked {settings : Settings} {token : QueryName.Token} {r : Request} {op : Operation}
    {tell : Except Refusal Answer → Response} (h : asked settings token r = .ok (op, tell)) (time : Time) (s : Store) :
    ((serve settings token r).run time s).2 = (op.run settings time s).2 := by
  rw [serve_eq, h]
  change ((tell <$> (op.program settings).attempt).run time s).2 = ((op.program settings).run time s).2
  rw [map_eq_pure_bind, Program.run_bind, Program.run_attempt]
  obtain ⟨(_ | _) | _, _⟩ := (op.program settings).run time s <;> rfl

/-- A request that is answered at once leaves the store. -/
theorem run_serve_of_error {settings : Settings} {token : QueryName.Token} {r : Request} {response : Response}
    (h : asked settings token r = .error response) (time : Time) (s : Store) :
    (serve settings token r).run time s = (.ok response, s) := by
  rw [serve_eq, h]
  rfl

/-! ## Who asks -/

theorem of_refusing_eq_ok {α : Type} {e : Except Refusal α} {a : α} (h : refusing e = .ok a) : e = .ok a := by
  cases e with
  | error why => cases h
  | ok b =>
    cases h
    rfl

/-- Only one method writes. -/
theorem method_of_use?_eq_post {route : Route} {method : String} (h : route.use? method = some .post) : method = "POST" := by
  unfold Route.use? at h
  split at h
  · cases h
  · split at h
    · cases h
    · split at h
      · rename_i hpost
        exact hpost.1
      · cases h

/-- What a request asks is asked of the route that its path leads to, by reading or by writing, and the outcome is told under the
status it has. -/
theorem of_asked_eq_ok {settings : Settings} {token : QueryName.Token} {r : Request} {op : Operation}
    {tell : Except Refusal Answer → Response} (h : asked settings token r = .ok (op, tell)) :
    (∃ route, Route.ofPath? r.parts.1 = some route ∧
      (askedGet settings r route = .ok op ∨ r.method = "POST" ∧ askedPost settings token r route = .ok op)) ∧
      ∀ o, (tell o).status = (outcome op o).status := by
  unfold asked at h
  split at h
  · cases h
  · rename_i route hroute
    split at h
    · cases h
    · obtain ⟨op', hget, heq⟩ := of_map_eq_ok h
      cases heq
      exact ⟨⟨route, hroute, Or.inl hget⟩, fun _ => rfl⟩
    · cases hget : askedGet settings r route with
      | error response =>
        rw [hget] at h
        cases h
      | ok op' =>
        rw [hget] at h
        cases h
        exact ⟨⟨route, hroute, Or.inl hget⟩, fun _ => rfl⟩
    · rename_i huse
      obtain ⟨op', hpost, heq⟩ := of_map_eq_ok h
      cases heq
      exact ⟨⟨route, hroute, Or.inr ⟨method_of_use?_eq_post huse, hpost⟩⟩, fun _ => rfl⟩

section Actor

variable {settings : Settings} {token : QueryName.Token} {r : Request} {route : Route} {op : Operation} {name : String}

/-- A request that reads asks for the actor it names. -/
theorem actor_of_askedGet (h : askedGet settings r route = .ok op) (hactor : op.actor? = some name) :
    actor settings r = .ok name := by
  cases route with
  | queries =>
    obtain ⟨_, -, h⟩ := of_bind_eq_ok h
    obtain ⟨name', hname, h⟩ := of_bind_eq_ok (of_refusing_eq_ok h)
    obtain ⟨_, -, h⟩ := of_bind_eq_ok h
    cases h
    cases hactor
    exact hname
  | environmentStats environment =>
    obtain ⟨_, -, h⟩ := of_bind_eq_ok h
    obtain ⟨name', hname, h⟩ := of_bind_eq_ok (of_refusing_eq_ok h)
    cases h
    cases hactor
    exact hname
  | _ => cases h

/-- A request that writes asks for the actor it names. -/
theorem actor_of_askedPost (h : askedPost settings token r route = .ok op) (hactor : op.actor? = some name) :
    actor settings r = .ok name := by
  cases route with
  | health => cases h
  | environmentStats environment => cases h
  | enroll | nodeConfig | nodeQueries | nodeResults =>
    obtain ⟨_, -, h⟩ := of_bind_eq_ok h
    cases of_refusing_eq_ok h
    cases hactor
  | queries =>
    obtain ⟨_, -, h⟩ := of_bind_eq_ok h
    obtain ⟨name', hname, h⟩ := of_bind_eq_ok (of_refusing_eq_ok h)
    obtain ⟨_, -, h⟩ := of_bind_eq_ok h
    obtain ⟨_, -, h⟩ := of_bind_eq_ok h
    cases h
    cases hactor
    exact hname
  | queryActions | carves | nodeActions =>
    obtain ⟨_, -, h⟩ := of_bind_eq_ok h
    obtain ⟨name', hname, h⟩ := of_bind_eq_ok (of_refusing_eq_ok h)
    obtain ⟨_, -, h⟩ := of_bind_eq_ok h
    cases h
    cases hactor
    exact hname
  | users | userPermissions | userAdmin =>
    obtain ⟨_, -, h⟩ := of_bind_eq_ok h
    obtain ⟨name', hname, h⟩ := of_bind_eq_ok (of_refusing_eq_ok h)
    cases h
    cases hactor
    exact hname

/-- A request asks for the actor it names. -/
theorem actor_of_asked {tell : Except Refusal Answer → Response} (h : asked settings token r = .ok (op, tell))
    (hactor : op.actor? = some name) : actor settings r = .ok name := by
  obtain ⟨⟨route, -, hget | ⟨-, hpost⟩⟩, -⟩ := of_asked_eq_ok h
  · exact actor_of_askedGet hget hactor
  · exact actor_of_askedPost hpost hactor

end Actor

end Http

end FleetControl
