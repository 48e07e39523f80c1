import Enrolment.Session.Step

/-!
What each step does to a session, and its answer.

A step that names an enroller or a cache that was never made changes nothing and answers nothing.
-/

namespace Enrolment

namespace Session

/-! ## The store -/

def storeStep (s : Session) : StoreStep → Traced (Answer × Session)
  | .add e =>
    let d := s.store.directory.add e
    return (.count d.size, s.setDirectory d)
  | .remove id =>
    match s.store.directory.remove id with
    | (some e, d) => return (.entity e, s.setDirectory d)
    | (none, _) => return (.nothing, s)
  | .size => return (.size s.store.directory.size, s)
  | .get id => do
    match ← s.store.get id with
    | .ok (some e) => return (.entity e, s)
    | .ok none => return (.nothing, s)
    | .error fault => return (.storeFault fault, s)
  | .list idp => do
    match ← s.store.list idp with
    | .ok es => return (.entities es, s)
    | .error fault => return (.storeFault fault, s)
  | .isGroup e => return (.flag (s.store.policy.isGroup e), s)
  | .isGroupPrincipal p => return (.flag (s.store.policy.isGroupPrincipal p), s)
  | .failId id fault? => return (.nothing, s.setOutages (s.store.outages.setId id fault?))
  | .failOthers fault? =>
    return (.nothing, s.setOutages { s.store.outages with otherIds := fault? })
  | .failEnumeration fault? =>
    return (.nothing, s.setOutages { s.store.outages with enumeration := fault? })
  | .vet id => do
    match ← s.store.vet id with
    | some p => return (.group p, s)
    | none => return (.nothing, s)
  | .compare a b => do
    let p? ← s.store.vet a
    let q? ← s.store.vet b
    match p?, q? with
    | some p, some q =>
      return (.comparison (p.name == q.name) (GroupSet.ofList [p, q]).size, s)
    | _, _ => return (.nothing, s)

/-! ## Standing groups -/

def ask (m : Standing) : StandingQuery → Answer
  | .groupIds idp => .texts (m.groupIds idp)
  | .hasIdp idp => .flag (m.hasIdp idp)
  | .hasGroup idp id => .flag (m.hasGroup idp id)
  | .idps => .texts m.idps
  | .size => .size m.size

def standingStep (s : Session) : StandingStep → Answer × Session
  | .assign idp ids => (.nothing, { s with standing := s.standing.assign idp ids })
  | .replace rows => (.nothing, { s with standing := Standing.ofList rows })
  | .configure text =>
    match Configuration.ofText text with
    | .ok c => (.nothing, { s with standing := Standing.ofConfiguration c })
    | .error fault => (.configFault fault, s)
  | .query on q => (ask (s.standingOf on) q, s)

/-! ## The registry -/

/-- The provider to register, what is told of it, and the session that knows it. -/
def prepare (s : Session) : NewProvider → Provider × Answer × Session
  | .allowList l => (.allowList l, .size l.size, s)
  | .ruleBook b => (.ruleBook b, .rules b.rules, s)
  | .outside source =>
    (.outside s.sources, .registered,
      { s with world := s.world.setSource s.sources source, sources := s.sources + 1 })

/-- Changes what the outside provider registered for an IDP answers. -/
def changeSource (s : Session) (idp : String) (f : Source → Source) : Session :=
  match s.registry.get? idp with
  | some (.outside n) => { s with world := s.world.setSource n (f (s.world.sources n)) }
  | _ => s

def registryStep (s : Session) : RegistryStep → Traced (Answer × Session)
  | .register idp p =>
    let (provider, answer, ready) := s.prepare p
    match s.registry.register idp provider with
    | (.ok (), registry) => return (answer, { ready with registry })
    | (.error fault, registry) => return (.configFault fault, { s with registry })
  | .names => return (.texts s.registry.names, s)
  | .size => return (.size s.registry.size, s)
  | .has idp => return (.flag (s.registry.has idp), s)
  | .describe => return (.text s.registry.describe, s)
  | .groupsOf idp e =>
    match s.registry.get? idp with
    | none => return (.nothing, s)
    | some p => do
      match ← s.world.askGroups idp p e with
      | .ok ids => return (.texts (IdSet.ids ids), s)
      | .error fault => return (.providerFault fault, s)
  | .membersOf idp group =>
    match s.registry.get? idp with
    | none => return (.nothing, s)
    | some p => do
      match ← s.world.askMembers idp p group with
      | .ok items => return (.items items, s)
      | .error fault => return (.providerFault fault, s)
  | .setGroups idp groups =>
    return (.nothing, s.changeSource idp ({ · with groupsOf := fun _ => groups }))
  | .setMembers idp members =>
    return (.nothing, s.changeSource idp ({ · with membersOf := fun _ => members }))

/-! ## Enrollers -/

def ofReply : Reply → Answer
  | .groups (.ok set) => .principals set.toList
  | .groups (.error fault) => .providerFault fault
  | .isMember (.ok b) => .flag b
  | .isMember (.error fault) => .providerFault fault
  | .members items => .items items
  | .idps names => .texts names

/-- Adds an enroller with an empty cache of its own; the answer is its number. -/
def create (s : Session) (m : Standing) : Answer × Session :=
  let (ready, cell) := s.newCell
  (.count s.enrollers.length, ready.addEnroller ⟨m, s.registry⟩ cell)

def enrollerStep (s : Session) : EnrollerStep → Traced (Answer × Session)
  | .create none => return s.create s.standing
  | .create (some text) =>
    match Configuration.ofText text with
    | .ok c => return s.create (Standing.ofConfiguration c)
    | .error fault => return (.configFault fault, s)
  | .copy on =>
    match s.enrollers[on]? with
    | some (n, cell) => return (.count s.enrollers.length, s.addEnroller n cell)
    | none => return (.nothing, s)
  | .call on c =>
    match s.enrollers[on]? with
    | some (n, cell) => do
      let (reply, cache) ← n.perform s.world (s.cell cell) c
      return (ofReply reply, s.setCell cell cache)
    | none => return (.nothing, s)
  | .stats on =>
    match s.enrollers[on]? with
    | some (_, cell) => return (.stats (s.cell cell).stats, s)
    | none => return (.nothing, s)

/-! ## Caches that stand alone -/

/-- Runs `f` on a cache and its cell. -/
def withCache (s : Session) (on : Nat) (f : Nat → Cache → Traced (Answer × Session)) :
    Traced (Answer × Session) :=
  match s.caches[on]? with
  | some cell => f cell (s.cell cell)
  | none => return (.nothing, s)

def cacheStep (s : Session) : CacheStep → Traced (Answer × Session)
  | .create =>
    let (ready, cell) := s.newCell
    return (.count s.caches.length, ready.addCache cell)
  | .copy on => s.withCache on fun cell _ =>
    return (.count s.caches.length, s.addCache cell)
  | .insert on idp ids => s.withCache on fun cell cache => do
    let set := GroupSet.ofList (← s.store.vetAll ids)
    return (.nothing, s.setCell cell (cache.insert idp set))
  | .take on idp => s.withCache on fun cell cache =>
    let (set?, cache) := cache.take idp
    let answer := match set? with
      | some set => .principals set.toList
      | none => .nothing
    return (answer, s.setCell cell cache)
  | .contains on idp => s.withCache on fun _ cache => return (.flag (cache.contains idp), s)
  | .size on => s.withCache on fun _ cache => return (.size cache.size, s)
  | .stats on => s.withCache on fun _ cache => return (.stats cache.stats, s)

def step (s : Session) : Step → Traced (Answer × Session)
  | .store x => s.storeStep x
  | .standing x => return s.standingStep x
  | .registry x => s.registryStep x
  | .enroller x => s.enrollerStep x
  | .cache x => s.cacheStep x

end Session

end Enrolment
