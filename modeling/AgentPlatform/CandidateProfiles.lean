import Mathlib.Logic.Relation
import AgentPlatform.LlmCalls

/-!
# The candidates of a request

`_candidate_profiles` walks the fallback graph of a request. The graph is
whatever the profiles say: it may have cycles, an alias may be listed twice or
stand for nothing, and a profile may belong to another tenant. The walk comes to
an end all the same, and what it returns is the closure of the requested alias
under permitted fallbacks, each profile once and breadth first
(`FallbackClosure`, `candidate_profiles_closure`).
-/

/-! ## Resolvers -/

/-- **A source of profiles**, as `ModelProfileResolver` is used: what it finds under
an alias is a profile of this alias. -/
structure ModelProfileResolver where
  resolve : String → String → Option ModelProfile
  resolve_alias : ∀ {tenantId modelAlias : String} {profile : ModelProfile},
    resolve tenantId modelAlias = some profile → profile.modelAlias = modelAlias

/-- `InMemoryModelProfileResolver`: the last profile of a tenant and an alias
counts. -/
def inMemoryModelProfileResolver (profiles : List ModelProfile) : ModelProfileResolver where
  resolve tenantId modelAlias := profiles.reverse.find?
    (fun p => p.tenantId = tenantId ∧ p.modelAlias = modelAlias)
  resolve_alias h := by
    have hfound := List.find?_some h
    exact (of_decide_eq_true hfound).2

/-- A row of `tenant.model_profile`, as far as the resolver reads it. -/
structure ModelProfileRow where
  tenantId : Uuid
  modelAlias : String
  providerModel : String
  endpointUrl : String
  secretRef : String
  dataClassification : DataClassification
  region : String
  fallbackAliases : List String
  requestsPerMinute : ℤ

/-- The profile of a row. -/
def ModelProfileRow.profile (row : ModelProfileRow) : ModelProfile where
  tenantId := row.tenantId.str
  modelAlias := row.modelAlias
  providerModel := row.providerModel
  endpointUrl := row.endpointUrl
  secretRef := row.secretRef
  dataClassification := row.dataClassification
  region := row.region
  fallbackAliases := row.fallbackAliases
  requestsPerMinute := row.requestsPerMinute

/-- `DatabaseModelProfileResolver`: a tenant that is not a UUID has no profiles. -/
def databaseModelProfileResolver (rows : List ModelProfileRow) : ModelProfileResolver where
  resolve tenantId modelAlias := do
    let tenant ← Uuid.parse tenantId
    let row ← rows.find? (fun r => r.tenantId = tenant ∧ r.modelAlias = modelAlias)
    return row.profile
  resolve_alias h := by
    obtain ⟨tenant, -, h⟩ := Option.bind_eq_some_iff.mp h
    obtain ⟨row, hrow, h⟩ := Option.bind_eq_some_iff.mp h
    obtain rfl := Option.some.inj h
    have hfound := List.find?_some hrow
    exact (of_decide_eq_true hfound).2

/-! ## The walk and the program -/

section Walk

variable {request : GatewayRequest} {resolve : String → String → Option ModelProfile}

/-- The resolver is there, and answers `resolve`. -/
def ResolvedBy (resolve : String → String → Option ModelProfile) :
    (op : LlmOp) → Except PyException (LlmRes op) → Prop
  | .resolveProfile tenantId modelAlias, r => r = .ok (resolve tenantId modelAlias)
  | _, _ => True

/-- The candidates are looked for with the resolver alone. -/
def LlmOp.resolves : LlmOp → Prop
  | .resolveProfile .. => True
  | _ => False

/-- **The program runs the search**, whatever its bound. -/
theorem candidateLoop_resolved (fuel : ℕ) (aliases seen : List String)
    (profiles : List ModelProfile) :
    (candidateLoop request fuel aliases seen profiles).Asks LlmOp.resolves (ResolvedBy resolve)
      (fun r => r = .ok (Worklist.search (visitAlias request resolve)
        (permittedFallbacks request) fuel aliases seen profiles)) := by
  refine (@candidateLoop_asks LlmOp.resolves (ResolvedBy resolve) _ resolve (fun _ => False)
    (fun _ _ => trivial) (fun t a r hr => ?_) fuel aliases seen profiles).mono (fun r hr => ?_)
  · obtain rfl : r = _ := hr
    rfl
  · cases r with
    | ok ps => exact congrArg _ hr
    | error e => exact hr.elim

/-- What an alias stands for is a profile of this alias. -/
theorem visitAlias_alias (resolver : ModelProfileResolver) {modelAlias : String}
    {profile : ModelProfile} (h : visitAlias request resolver.resolve modelAlias = some profile) :
    profile.modelAlias = modelAlias := by
  obtain ⟨hfound, -⟩ := Option.filter_eq_some_iff.mp h
  unfold lookupProfile at hfound
  split at hfound
  · rename_i hsnapshot
    obtain rfl := Option.some.inj hfound
    have halias := List.find?_some hsnapshot
    exact of_decide_eq_true halias
  · split at hfound
    · exact resolver.resolve_alias hfound
    · cases hfound

/-- **The walk comes to an end**: it visits no alias but the requested one and the
permitted ones, and each once. -/
theorem candidateList_ends (request : GatewayRequest)
    (resolve : String → String → Option ModelProfile) :
    Worklist.Ends (visitAlias request resolve) (permittedFallbacks request)
      ⟨[request.modelAlias], [], []⟩ (candidateList request resolve) :=
  (Worklist.inv_start [request.modelAlias]).ends _ (fun _ ha => mem_of_pending ha) (by simp)

end Walk

/-! ## The closure -/

/-- **A fallback edge**: a returned profile lists an alias that the request
permits. -/
def FallbackEdge (request : GatewayRequest) (profiles : List ModelProfile) (a b : String) : Prop :=
  ∃ p ∈ profiles, p.modelAlias = a ∧ b ∈ p.fallbackAliases ∧ b ∈ request.allowedFallbackAliases

/-- **The fallback closure of a request**, breadth first. -/
structure FallbackClosure (request : GatewayRequest)
    (resolve : String → String → Option ModelProfile) (profiles : List ModelProfile) : Prop where
  /-- No alias is there twice. -/
  distinct : (profiles.map ModelProfile.modelAlias).Nodup
  /-- The requested profile comes first, if there is one. -/
  primary : ∀ p, visitAlias request resolve request.modelAlias = some p → profiles.head? = some p
  /-- The profiles are those of the tenant that can be reached. -/
  closed : ∀ p, p ∈ profiles ↔ ∃ a, lookupProfile request resolve a = some p
    ∧ p.tenantId = request.tenantId
    ∧ Relation.ReflTransGen (FallbackEdge request profiles) request.modelAlias a
  /-- They are in the order in which their aliases come up first. -/
  order : profiles = (request.modelAlias :: profiles.flatMap
    (permittedFallbacks request)).eraseDups.filterMap (visitAlias request resolve)
  /-- No profile is closer to the requested one than those before it. -/
  breadthFirst : ∀ before p after, profiles = before ++ p :: after → ∀ q ∈ before, ∀ n,
    Worklist.ComesUp (visitAlias request resolve) (permittedFallbacks request)
      [request.modelAlias] n p.modelAlias →
    ∃ m ≤ n, Worklist.ComesUp (visitAlias request resolve) (permittedFallbacks request)
      [request.modelAlias] m q.modelAlias

section Closure

variable {request : GatewayRequest} {resolver : ModelProfileResolver}

theorem visitAlias_eq_some {resolve : String → String → Option ModelProfile} {a : String}
    {p : ModelProfile} : visitAlias request resolve a = some p
      ↔ lookupProfile request resolve a = some p ∧ p.tenantId = request.tenantId := by
  unfold visitAlias
  rw [Option.filter_eq_some_iff]
  simp

/-- A candidate is reached through candidates. -/
theorem reached_of_fallbackEdges {a : String} {p : ModelProfile}
    (hpath : Relation.ReflTransGen
      (FallbackEdge request (candidateList request resolver.resolve)) request.modelAlias a)
    (hp : visitAlias request resolver.resolve a = some p) :
    Worklist.Reached (visitAlias request resolver.resolve) (permittedFallbacks request)
      [request.modelAlias] a p := by
  cases hpath with
  | refl => exact .start List.mem_cons_self hp
  | tail _ hedge =>
    obtain ⟨q, hq, -, hlisted, hpermitted⟩ := hedge
    obtain ⟨b, hb⟩ := mem_candidateList.mp hq
    exact .succ hb (List.mem_filter.mpr ⟨hlisted, by simpa using hpermitted⟩) hp

/-- What is reached is reached along fallback edges. -/
theorem fallbackEdges_of_reached {a : String} {p : ModelProfile}
    (h : Worklist.Reached (visitAlias request resolver.resolve) (permittedFallbacks request)
      [request.modelAlias] a p) :
    visitAlias request resolver.resolve a = some p ∧ Relation.ReflTransGen
      (FallbackEdge request (candidateList request resolver.resolve)) request.modelAlias a := by
  induction h with
  | start ha hp =>
    rw [List.mem_singleton.mp ha] at hp ⊢
    exact ⟨hp, .refl⟩
  | succ h ha hp ih =>
    obtain ⟨hlisted, hpermitted⟩ := List.mem_filter.mp ha
    exact ⟨hp, ih.2.tail ⟨_, mem_candidateList.mpr ⟨_, h⟩, visitAlias_alias resolver ih.1,
      hlisted, by simpa using hpermitted⟩⟩

theorem candidateList_closure (request : GatewayRequest) (resolver : ModelProfileResolver) :
    FallbackClosure request resolver.resolve (candidateList request resolver.resolve) := by
  have hends := candidateList_ends request resolver.resolve
  have horder := hends.order (Worklist.inOrder_start _)
  have hname : ∀ a p, visitAlias request resolver.resolve a = some p → p.modelAlias = a :=
    fun a p h => visitAlias_alias resolver h
  refine ⟨hends.nodup hname, fun p hp => ?_, fun p => ?_, horder,
    fun before p after hsplit q hq n hup => hends.breadthFirst hname hsplit hq hup⟩
  · rw [horder, List.singleton_append, List.eraseDups_cons, List.filterMap_cons_some hp]
    rfl
  · rw [mem_candidateList]
    constructor
    · rintro ⟨a, h⟩
      obtain ⟨hp, hpath⟩ := fallbackEdges_of_reached h
      obtain ⟨hfound, htenant⟩ := visitAlias_eq_some.mp hp
      exact ⟨a, hfound, htenant, hpath⟩
    · rintro ⟨a, hfound, htenant, hpath⟩
      exact ⟨a, reached_of_fallbackEdges hpath (visitAlias_eq_some.mpr ⟨hfound, htenant⟩)⟩

/-- **`_candidate_profiles` returns the fallback closure**: the loop comes to an
end, and the call, which asks the resolver and nothing else, returns the closure
of the requested alias. -/
theorem candidate_profiles_closure (request : GatewayRequest) (resolver : ModelProfileResolver) :
    ∃ profiles, Worklist.Ends (visitAlias request resolver.resolve) (permittedFallbacks request)
        ⟨[request.modelAlias], [], []⟩ profiles
      ∧ (candidateProfiles request).Asks LlmOp.resolves (ResolvedBy resolver.resolve)
        (fun r => r = .ok profiles)
      ∧ FallbackClosure request resolver.resolve profiles :=
  ⟨candidateList request resolver.resolve, candidateList_ends request resolver.resolve,
    candidateLoop_resolved _ _ _ _, candidateList_closure request resolver⟩

end Closure
