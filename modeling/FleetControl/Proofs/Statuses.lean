import FleetControl.Proofs.Atomicity
import FleetControl.Proofs.Blame
import FleetControl.Proofs.Gate

/-!
# The statuses of responses

However a request is formed and whatever is stored, it is answered with success or its client is blamed, and a blamed client has
written nothing, but for the action on several nodes. A request that is answered at once either asks for the health of the service or
cannot be read, or what it asks is not understood; else it is answered by the outcome of an operation, which never fails by a
fault of the service (`Operation.fair`). The stores concerned are those that requests lead to, their steps taken in any turns.
-/

namespace FleetControl.Http

/-! ## The traffic of requests -/

/-- A store together with what is left of the requests begun on it. -/
structure Serving where
  store : Store
  begun : List (Program Response)

variable (settings : Settings)

/-- A request is begun, or one of those begun takes a step at some time. -/
inductive Serving.Step : Serving → Serving → Prop where
  | begin (s : Store) (begun : List (Program Response)) (token : QueryName.Token) (r : Request) :
      Step ⟨s, begun⟩ ⟨s, begun ++ [serve settings token r]⟩
  | turn (s : Store) (before after : List (Program Response)) (p : Program Response) (time : Time) :
      Step ⟨s, before ++ p :: after⟩ ⟨(p.step time s).2, before ++ (p.step time s).1 :: after⟩

/-- The stores that requests lead to from one that operations lead to, their steps taken in any turns. -/
def Served (s : Store) : Prop :=
  ∃ started begun, Reachable settings started ∧ Relation.ReflTransGen (Serving.Step settings) ⟨started, []⟩ ⟨s, begun⟩

variable {settings}

/-- What is left of a request that is answered by the outcome of an operation, of which this is left; or of one already answered. -/
def Tells (q : Program Response) (p : Program Answer) : Prop := (∃ tell, q = tell <$> p.attempt) ∨ ∃ response, q = pure response

/-- A step of what tells the outcome of a program is a step of the program. -/
theorem step_map_attempt (tell : Except Refusal Answer → Response) (p : Program Answer) (time : Time) (s : Store) :
    (tell <$> p.attempt).step time s = (tell <$> (p.step time s).1.attempt, (p.step time s).2) := by
  cases p with
  | done a => rfl
  | stop why => cases why <;> rfl
  | clock next => rfl
  | call c next => rfl

/-- A step of a request is a step of its operation, or there is nothing left to be done. -/
theorem Tells.step {q : Program Response} {p : Program Answer} (h : Tells q p) (time : Time) (s : Store) :
    (q.step time s).2 = (p.step time s).2 ∧ Tells (q.step time s).1 (p.step time s).1 ∨
      (q.step time s).2 = s ∧ Tells (q.step time s).1 p := by
  rcases h with ⟨tell, rfl⟩ | ⟨response, rfl⟩
  · rw [step_map_attempt]
    exact Or.inl ⟨rfl, Or.inl ⟨tell, rfl⟩⟩
  · exact Or.inr ⟨rfl, Or.inr ⟨response, rfl⟩⟩

/-- The traffic of requests is a traffic of operations: each request that asks one is answered as it goes. -/
theorem Serving.simulated {started : Store} {begun : List (Program Answer)}
    (hstarted : Traffic.LeadsTo settings ⟨.empty, []⟩ ⟨started, begun⟩) {v : Serving}
    (steps : Relation.ReflTransGen (Serving.Step settings) ⟨started, []⟩ v) :
    ∃ pairs : List (Program Response × Program Answer), v.begun = pairs.map Prod.fst ∧ (∀ pair ∈ pairs, Tells pair.1 pair.2) ∧
      Traffic.LeadsTo settings ⟨.empty, []⟩ ⟨v.store, begun ++ pairs.map Prod.snd⟩ := by
  induction steps with
  | refl => exact ⟨[], rfl, nofun, by rwa [List.map_nil, List.append_nil]⟩
  | tail _ step ih =>
    obtain ⟨pairs, hbegun, htells, traffic⟩ := ih
    cases step with
    | begin s requests token r =>
      -- a request that asks nothing stands beside an operation that never takes a step
      obtain ⟨op, hop⟩ : ∃ op : Operation, Tells (serve settings token r) (op.program settings) := by
        rw [serve_eq]
        cases asked settings token r with
        | error response => exact ⟨.poll "", Or.inr ⟨response, rfl⟩⟩
        | ok asked => exact ⟨asked.1, Or.inl ⟨asked.2, rfl⟩⟩
      generalize serve settings token r = q at hop ⊢
      refine ⟨pairs ++ [(q, op.program settings)], ?_, ?_, ?_⟩
      · rw [List.map_append, ← hbegun]
        rfl
      · exact List.forall_mem_append.mpr ⟨htells, List.forall_mem_singleton.mpr hop⟩
      · rw [List.map_append, ← List.append_assoc]
        exact traffic.tail (.begin _ _ op)
    | turn s before after q time =>
      obtain ⟨pairsBefore, rest, rfl, rfl, hrest⟩ := List.map_eq_append_iff.mp hbegun.symm
      obtain ⟨⟨q', p⟩, pairsAfter, rfl, rfl, rfl⟩ := List.map_eq_cons_iff.mp hrest
      obtain ⟨hbefore, hrest⟩ := List.forall_mem_append.mp htells
      obtain ⟨htell, hafter⟩ := List.forall_mem_cons.mp hrest
      rw [List.map_append, List.map_cons, ← List.append_assoc] at traffic
      rcases htell.step time s with ⟨hstore, htold⟩ | ⟨hstore, htold⟩
      · refine ⟨pairsBefore ++ ((q'.step time s).1, (p.step time s).1) :: pairsAfter, ?_, ?_, ?_⟩
        · rw [List.map_append, List.map_cons]
        · exact List.forall_mem_append.mpr ⟨hbefore, List.forall_mem_cons.mpr ⟨htold, hafter⟩⟩
        · rw [List.map_append, List.map_cons, ← List.append_assoc]
          dsimp only
          rw [hstore]
          exact traffic.tail (.turn s _ _ p time)
      · refine ⟨pairsBefore ++ ((q'.step time s).1, p) :: pairsAfter, ?_, ?_, ?_⟩
        · rw [List.map_append, List.map_cons]
        · exact List.forall_mem_append.mpr ⟨hbefore, List.forall_mem_cons.mpr ⟨htold, hafter⟩⟩
        · rw [List.map_append, List.map_cons, ← List.append_assoc]
          dsimp only
          rw [hstore]
          exact traffic

/-- Requests lead to no other stores than operations do. -/
theorem Served.reachable {s : Store} (hs : Served settings s) : Reachable settings s := by
  obtain ⟨started, requests, ⟨begun, hstarted⟩, steps⟩ := hs
  obtain ⟨pairs, -, -, traffic⟩ := Serving.simulated hstarted steps
  exact ⟨_, traffic⟩

theorem Served.of_reachable {s : Store} (hs : Reachable settings s) : Served settings s := ⟨s, [], hs, .refl⟩

/-- A request that takes its steps without a break leaves the store as a run of it does. -/
theorem Serving.leadsTo_run (before : List (Program Response)) (p : Program Response) (time : Time) (s : Store) :
    ∃ left, Relation.ReflTransGen (Serving.Step settings) ⟨s, before ++ [p]⟩ ⟨(p.run time s).2, before ++ [left]⟩ := by
  induction p generalizing s with
  | done response => exact ⟨.done response, .refl⟩
  | stop why => exact ⟨.stop why, .refl⟩
  | clock next ih =>
    obtain ⟨left, steps⟩ := ih time s
    exact ⟨left, .head (.turn s before [] (.clock next) time) steps⟩
  | call c next ih =>
    obtain ⟨left, steps⟩ := ih (s.serve time c).1 (s.serve time c).2
    exact ⟨left, .head (.turn s before [] (.call c next) time) steps⟩

/-- A request that is answered without a break is a case of traffic. -/
theorem Served.run {s : Store} (hs : Served settings s) (token : QueryName.Token) (r : Request) (time : Time) :
    Served settings ((serve settings token r).run time s).2 := by
  obtain ⟨started, begun, hstarted, steps⟩ := hs
  obtain ⟨left, run⟩ := Serving.leadsTo_run begun (serve settings token r) time s
  exact ⟨started, begun ++ [left], hstarted, (steps.tail (.begin s begun token r)).trans run⟩

/-! ## What a status tells -/

namespace Response

/-- The status is one of success. -/
def Succeeds (response : Response) : Prop := 200 ≤ response.status ∧ response.status < 300

instance (response : Response) : Decidable response.Succeeds := inferInstanceAs (Decidable (_ ∧ _))

/-- A refusal that blames the caller is answered with a status that does. -/
theorem blamesClient_ofRefusal {why : Refusal} (h : why.BlamesCaller) : (ofRefusal why).BlamesClient := by
  obtain ⟨hconfiguration, hinternal⟩ := h
  unfold BlamesClient ofRefusal
  dsimp only
  cases hkind : why.kind with
  | configuration => exact absurd hkind hconfiguration
  | internal => exact absurd hkind hinternal
  | _ => exact ⟨by decide, by decide⟩

end Response

/-- An answer is told with success. -/
theorem told_succeeds (op : Operation) (a : Answer) : (told op a).Succeeds := by
  have hstatus : (told op a).status ∈ [200, 201, 204] := by
    cases op <;> simp [told, Response.ok, Response.created, Response.noContent]
  simp only [List.mem_cons, List.not_mem_nil, or_false] at hstatus
  unfold Response.Succeeds
  omega

/-! ## Requests that are answered at once -/

theorem fairResult_actor (r : Request) : FairResult (actor settings r) := by
  intro why hactor
  rw [of_actor_eq_error hactor]
  exact ⟨nofun, nofun⟩

theorem fairResult_chosenAction (body : NodeActionBody) : FairResult (chosenAction body) := by
  refine (NodeAction.fair_parse body.action).bind ?_
  intro action
  split <;> exact .ok _

/-- What a word is understood as, or what stands for it where there is none. -/
theorem fairResult_getD {α : Type} {parse : String → Except Refusal α} (h : ∀ word, FairResult (parse word)) (word : Option String)
    (a : α) : FairResult ((word.map parse).getD (.ok a)) := by
  cases word with
  | some word => exact h word
  | none => exact .ok a

/-- Where a request is read and understood fairly, it is not answered at once but to blame its client. -/
theorem blamesClient_of_read {α : Type} {read : Except Response α} (hread : ∀ response, read = .error response → response.TurnsAway)
    {understood : α → Except Refusal Operation} (hfair : ∀ a, FairResult (understood a)) {response : Response}
    (h : (read >>= fun a => refusing (understood a)) = .error response) : response.BlamesClient := by
  cases hresult : read with
  | error response =>
    rw [hresult] at h
    cases h
    exact (hread response hresult).blamesClient
  | ok a =>
    rw [hresult] at h
    change refusing (understood a) = .error response at h
    cases hop : understood a with
    | ok op =>
      rw [hop] at h
      cases h
    | error why =>
      rw [hop] at h
      cases h
      exact Response.blamesClient_ofRefusal (hfair a why hop)

section Asked

variable {r : Request} {token : QueryName.Token} {route : Route} {response : Response}

/-- A request that reads a route is answered at once with the health of the service, or to blame its client. -/
theorem of_askedGet_eq_error (h : askedGet settings r route = .error response) : response.Succeeds ∨ response.BlamesClient := by
  cases route with
  | health =>
    cases h
    exact Or.inl (by decide)
  | queries =>
    refine Or.inr (blamesClient_of_read (fun _ => turnsAway_of_readListing) (fun listing => ?_) h)
    exact (fairResult_actor r).bind fun _ => (fairResult_getD Listing.fair_parse listing .active).bind fun _ => .ok _
  | environmentStats environment =>
    refine Or.inr (blamesClient_of_read (fun _ => turnsAway_of_readName) (fun name => ?_) h)
    exact (fairResult_actor r).bind fun _ => .ok _
  | _ =>
    cases h
    exact Or.inr (by decide)

/-- A request that writes to a route is answered at once to blame its client, if it is. -/
theorem of_askedPost_eq_error (h : askedPost settings token r route = .error response) : response.BlamesClient := by
  cases route with
  | health | environmentStats _ =>
    cases h
    decide
  | enroll | nodeConfig | nodeQueries | nodeResults =>
    exact blamesClient_of_read (fun _ => turnsAway_of_readBody) (fun body => .ok _) h
  | queries =>
    refine blamesClient_of_read (fun _ => turnsAway_of_readBody) (fun body => ?_) h
    refine (fairResult_actor r).bind fun _ => (fairResult_getD QueryKind.fair_parse body.kind .standard).bind fun _ => ?_
    exact (Target.fair_parseAll body.targets).bind fun _ => .ok _
  | queryActions =>
    refine blamesClient_of_read (fun _ => turnsAway_of_readBody) (fun body => ?_) h
    exact (fairResult_actor r).bind fun _ => (QueryAction.fair_parse body.action).bind fun _ => .ok _
  | carves =>
    refine blamesClient_of_read (fun _ => turnsAway_of_readBody) (fun body => ?_) h
    exact (fairResult_actor r).bind fun _ => (Target.fair_parseAll body.targets).bind fun _ => .ok _
  | nodeActions =>
    refine blamesClient_of_read (fun _ => turnsAway_of_readBody) (fun body => ?_) h
    exact (fairResult_actor r).bind fun _ => (fairResult_chosenAction body).bind fun _ => .ok _
  | users =>
    refine blamesClient_of_read (fun _ => turnsAway_of_readBody) (fun body => ?_) h
    exact (fairResult_actor r).bind fun _ => .ok _
  | userPermissions username | userAdmin username =>
    refine blamesClient_of_read (fun _ => turnsAway_of_readBoth) (fun body => ?_) h
    exact (fairResult_actor r).bind fun _ => .ok _

/-- A request that is answered at once is answered with success, or to blame its client. -/
theorem of_asked_eq_error (h : asked settings token r = .error response) : response.Succeeds ∨ response.BlamesClient := by
  unfold asked at h
  split at h
  · cases h
    exact Or.inr (by decide)
  · rename_i route _
    split at h
    · cases h
      exact Or.inr (by decide)
    · cases hget : askedGet settings r route with
      | ok op =>
        rw [hget] at h
        cases h
      | error response =>
        rw [hget] at h
        cases h
        exact of_askedGet_eq_error hget
    · cases hget : askedGet settings r route with
      | ok op =>
        rw [hget] at h
        cases h
      | error response' =>
        rw [hget] at h
        cases h
        -- without its body a response has the same status
        have hanswer : response'.Succeeds ∨ response'.BlamesClient := of_askedGet_eq_error hget
        exact hanswer
    · cases hpost : askedPost settings token r route with
      | ok op =>
        rw [hpost] at h
        cases h
      | error response =>
        rw [hpost] at h
        cases h
        exact Or.inr (of_askedPost_eq_error hpost)

/-! ## Requests that ask an operation -/

variable {op : Operation} {tell : Except Refusal Answer → Response}

/-- No request that reads asks for the action on several nodes. -/
theorem isNodeAction_of_askedGet (h : askedGet settings r route = .ok op) : op.isNodeAction = false := by
  cases route with
  | queries =>
    obtain ⟨_, -, h⟩ := of_bind_eq_ok h
    obtain ⟨_, -, h⟩ := of_bind_eq_ok (of_refusing_eq_ok h)
    obtain ⟨_, -, h⟩ := of_bind_eq_ok h
    cases h
    rfl
  | environmentStats environment =>
    obtain ⟨_, -, h⟩ := of_bind_eq_ok h
    obtain ⟨_, -, h⟩ := of_bind_eq_ok (of_refusing_eq_ok h)
    cases h
    rfl
  | _ => cases h

/-- A request that writes asks for the action on several nodes on one route only. -/
theorem route_of_askedPost (h : askedPost settings token r route = .ok op) (hop : op.isNodeAction = true) :
    route = .nodeActions := by
  cases route with
  | nodeActions => rfl
  | health | environmentStats _ => cases h
  | enroll | nodeConfig | nodeQueries | nodeResults =>
    obtain ⟨_, -, h⟩ := of_bind_eq_ok h
    cases of_refusing_eq_ok h
    cases hop
  | queries =>
    obtain ⟨_, -, h⟩ := of_bind_eq_ok h
    obtain ⟨_, -, h⟩ := of_bind_eq_ok (of_refusing_eq_ok h)
    obtain ⟨_, -, h⟩ := of_bind_eq_ok h
    obtain ⟨_, -, h⟩ := of_bind_eq_ok h
    cases h
    cases hop
  | queryActions | carves =>
    obtain ⟨_, -, h⟩ := of_bind_eq_ok h
    obtain ⟨_, -, h⟩ := of_bind_eq_ok (of_refusing_eq_ok h)
    obtain ⟨_, -, h⟩ := of_bind_eq_ok h
    cases h
    cases hop
  | users | userPermissions _ | userAdmin _ =>
    obtain ⟨_, -, h⟩ := of_bind_eq_ok h
    obtain ⟨_, -, h⟩ := of_bind_eq_ok (of_refusing_eq_ok h)
    cases h
    cases hop

/-- The action on several nodes is asked for by writing to its route. -/
theorem isNodeAction_of_asked (h : asked settings token r = .ok (op, tell)) (hop : op.isNodeAction = true) :
    r.method = "POST" ∧ Route.ofPath? r.parts.1 = some .nodeActions := by
  obtain ⟨⟨route, hroute, hget | ⟨hmethod, hpost⟩⟩, -⟩ := of_asked_eq_ok h
  · rw [isNodeAction_of_askedGet hget] at hop
    cases hop
  · rw [hroute, route_of_askedPost hpost hop]
    exact ⟨hmethod, rfl⟩

/-- A request that asks an operation is answered with success where the operation has a result, and else it leaves the store and
blames its client. -/
theorem run_serve_of_asked_at (h : asked settings token r = .ok (op, tell)) {time : Time}
    (hcutoff : (activityCutoff time settings.inactiveHours).isSome) (s : Store) :
    ∃ response s', (serve settings token r).run time s = (.ok response, s') ∧
      (response.Succeeds ∨ response.BlamesClient ∧ ∃ why, op.run settings time s = (.error why, s')) := by
  have hstatus := (of_asked_eq_ok h).2
  have hrun : (serve settings token r).run time s =
      (((op.program settings).attempt.run time s).1.map tell, ((op.program settings).attempt.run time s).2) := by
    rw [serve_eq, h]
    exact Program.run_map _ tell
  rw [Program.run_attempt] at hrun
  have hfair := (op.fair settings).run hcutoff s
  unfold Operation.run
  cases hop : (op.program settings).run time s with
  | mk result s' =>
    rw [hop] at hrun hfair
    rcases hfair with ⟨a, rfl⟩ | ⟨why, hwhy, rfl⟩
    · refine ⟨tell (.ok a), s', hrun, Or.inl ?_⟩
      have hsucceeds := told_succeeds op a
      unfold Response.Succeeds at hsucceeds ⊢
      rwa [hstatus]
    · refine ⟨tell (.error why), s', hrun, Or.inr ⟨?_, _, rfl⟩⟩
      have hblames := Response.blamesClient_ofRefusal hwhy
      unfold Response.BlamesClient at hblames ⊢
      rwa [hstatus]

end Asked

/-- Where the activity cutoff can be held, every request has a response of success or one that blames the client, and then it has
written nothing, unless it writes to the route of the action on several nodes. -/
theorem answered_or_blamed {settings : Settings} {s : Store} (hs : Served settings s) {time : Time}
    (hcutoff : (activityCutoff time settings.inactiveHours).isSome) (token : QueryName.Token) (r : Request) :
    ∃ response s', (serve settings token r).run time s = (.ok response, s') ∧ (response.Succeeds ∨ response.BlamesClient) ∧
      (response.BlamesClient → ¬(r.method = "POST" ∧ Route.ofPath? r.parts.1 = some .nodeActions) → s' = s) := by
  cases hasked : asked settings token r with
  | error response =>
    exact ⟨response, s, run_serve_of_error hasked time s, of_asked_eq_error hasked, fun _ _ => rfl⟩
  | ok asked =>
    obtain ⟨op, tell⟩ := asked
    obtain ⟨response, s', hrun, houtcome⟩ := run_serve_of_asked_at hasked hcutoff s
    refine ⟨response, s', hrun, houtcome.imp id And.left, ?_⟩
    intro hblames hroute
    rcases houtcome with hsucceeds | ⟨-, why, hrefused⟩
    · have h200 := hsucceeds.2
      have h400 := hblames.1
      omega
    · have hop : op.isNodeAction = false := by
        rw [Bool.eq_false_iff]
        exact fun hop => hroute (isNodeAction_of_asked hasked hop)
      exact Operation.allOrNothing (Store.Sound.of_reachable hs.reachable) hop time why s' hrefused

/-- After a node has enrolled a query is to be launched at an environment that no node is in. The client is blamed, and no query is
written down. -/
theorem answered_or_blamed_at_unknown_target :
    let settings : Settings := .embedded ["prod"]
    let enrolment : Request :=
      { method := "POST", target := "/api/v1/enroll", headers := [("content-type", Utf8.encode "application/json")],
        body := Utf8.encode "\x7b\"uuid\":\"a-1\",\"node_key\":\"key\",\"environment\":\"prod\"\x7d" }
    let launch : Request :=
      { method := "POST", target := "/api/v1/queries",
        headers := [("content-type", Utf8.encode "application/json"), ("x-fleet-user", Utf8.encode "root")],
        body := Utf8.encode
          "\x7b\"query\":\"SELECT 1;\",\"targets\":[\x7b\"kind\":\"environment\",\"value\":\"stage\"\x7d]\x7d" }
    let s := ((serve settings 0 enrolment).run 1 (Operation.replay settings .empty [(0, .ensureAdmin "root")])).2
    s.nodes ≠ [] ∧
      (serve settings 7 launch).run 2 s =
        (.ok ⟨400, .refusal "invalid target: no target matches an enrolled node or configured environment"⟩, s) := by
  intro settings enrolment launch s
  have hs : Served settings s := (Served.of_reachable (reachable_empty.replay _)).run 0 enrolment 1
  have hcutoff : (activityCutoff 2 settings.inactiveHours).isSome := by decide +kernel
  obtain ⟨response, s', hrun, -, hunchanged⟩ := answered_or_blamed hs hcutoff 7 launch
  have hresponse : ((serve settings 7 launch).run 2 s).1.toOption =
      some ⟨400, .refusal "invalid target: no target matches an enrolled node or configured environment"⟩ := by decide +kernel
  rw [hrun] at hresponse
  cases hresponse
  have hsame : s' = s := hunchanged (by decide) (by decide +kernel)
  rw [hsame] at hrun
  exact ⟨by decide +kernel, hrun⟩

end FleetControl.Http
