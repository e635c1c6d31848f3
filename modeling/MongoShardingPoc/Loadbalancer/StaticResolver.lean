import MongoShardingPoc.GoValues

/-!
# The static resolver

`staticResolverBuilder.Build` resolves a target such as
`static:///host1:50051,host2:50051` once, at build time: it splits the
endpoint at commas, trims every host, keeps the non-empty ones in order and
publishes them with a single `cc.UpdateState` call.  The resolver it returns
has nothing left to do: its `ResolveNow` and `Close` are empty.

The connection is modelled by the answer its `UpdateState` gives and the
list of states published to it, so that "called exactly once, with these
addresses" is a statement about that list.
-/

namespace MongoShardingPoc.Loadbalancer

open MongoShardingPoc.Go

/-- The parts of a `resolver.Target` the builders read: `target.URL.String()`
and `target.Endpoint()`. -/
structure Target where
  url : GoString
  endpoint : GoString
  deriving DecidableEq, Repr

/-- `resolver.Address`; the builders set only `Addr`. -/
structure Address where
  addr : GoString
  deriving DecidableEq, Repr

/-- `resolver.State`; the builders set only `Addresses`. -/
structure ResolverState where
  addresses : List Address
  deriving DecidableEq, Repr

/-- The `resolver.ClientConn` a builder publishes to: its `UpdateState`
answers `updateState`, and `published` holds the states passed to it so far,
oldest first. -/
structure ClientConn where
  updateState : ResolverState → Option GoError
  published : List ResolverState

/-- `cc.UpdateState(state)`: the call is recorded and its answer returned. -/
def ClientConn.update (cc : ClientConn) (state : ResolverState) :
    ClientConn × Option GoError :=
  ({ cc with published := cc.published ++ [state] }, cc.updateState state)

def staticScheme : String := "static"

structure StaticResolverBuilder where
  deriving DecidableEq, Repr

/-- `staticResolver`: its addresses are fixed at build time, and its
`ResolveNow` and `Close` do nothing. -/
structure StaticResolver where
  deriving DecidableEq, Repr

def StaticResolverBuilder.scheme (_ : StaticResolverBuilder) : String :=
  staticScheme

/-- The loop of `Build`: every host is trimmed, an empty one is skipped, and
the others are appended to `addrs` in order. -/
def appendHosts (addrs : List Address) : List GoString → List Address
  | [] => addrs
  | h :: hosts =>
    let h := trimSpace h
    if h = [] then appendHosts addrs hosts
    else appendHosts (addrs ++ [⟨h⟩]) hosts

/-- `staticResolverBuilder.Build`: the connection after the call, and the
resolver or the error it returns. -/
def StaticResolverBuilder.build (_ : StaticResolverBuilder) (target : Target)
    (cc : ClientConn) : ClientConn × Except GoError StaticResolver :=
  let endpoint := target.endpoint
  if endpoint = [] then
    (cc, .error (.quoted "static resolver: empty endpoint in target %q" target.url))
  else
    let hosts := split endpoint comma
    let addrs := appendHosts [] hosts
    if addrs.length = 0 then
      (cc, .error (.quoted "static resolver: no valid addresses in %q" endpoint))
    else
      match cc.update ⟨addrs⟩ with
      | (cc, some err) => (cc, .error (.wrapped "static resolver: update state: %v" err))
      | (cc, none) => (cc, .ok {})

/-! ## The host loop -/

/-- The hosts `Build` keeps: the trimmed pieces of the endpoint that are not
empty, in order. -/
def trimmedHosts (endpoint : GoString) : List GoString :=
  ((split endpoint comma).map trimSpace).filter (· ≠ [])

theorem appendHosts_eq (addrs : List Address) (hosts : List GoString) :
    appendHosts addrs hosts =
      addrs ++ (((hosts.map trimSpace).filter (· ≠ [])).map Address.mk) := by
  induction hosts generalizing addrs with
  | nil =>
      simp [appendHosts]
  | cons h hosts inductionHypothesis =>
      by_cases empty : trimSpace h = []
      · simp [appendHosts, empty, inductionHypothesis]
      · simp [appendHosts, empty, inductionHypothesis, List.filter_cons]

theorem appendHosts_nil_split (endpoint : GoString) :
    appendHosts [] (split endpoint comma) = (trimmedHosts endpoint).map Address.mk := by
  simp [appendHosts_eq, trimmedHosts]

@[simp]
theorem trimmedHosts_nil : trimmedHosts [] = [] := by
  decide

theorem mem_trimmedHosts {endpoint host : GoString} (member : host ∈ trimmedHosts endpoint) :
    host ≠ [] ∧ comma ∉ host ∧ host <:+: endpoint ∧
      ∃ piece ∈ split endpoint comma, IsTrimmed piece host := by
  obtain ⟨trimmed, nonEmpty⟩ := List.mem_filter.mp member
  obtain ⟨piece, isPiece, rfl⟩ := List.mem_map.mp trimmed
  have inPiece := trimSpace_contiguous piece
  exact ⟨by simpa using nonEmpty,
    fun commaIn => not_mem_of_mem_split endpoint comma piece isPiece (inPiece.subset commaIn),
    inPiece.trans ((split_pieces_contiguous endpoint comma).1 piece isPiece),
    piece, isPiece, trimSpace_isTrimmed piece⟩

/-! ## Build -/

section Build

variable (b : StaticResolverBuilder) (target : Target) (cc : ClientConn)

theorem build_of_trimmedHosts_eq_nil (noHosts : trimmedHosts target.endpoint = []) :
    (b.build target cc).1 = cc ∧ ∃ err, (b.build target cc).2 = .error err := by
  simp only [StaticResolverBuilder.build, appendHosts_nil_split, noHosts, List.map_nil,
    List.length_nil, if_true]
  split <;> exact ⟨rfl, _, rfl⟩

theorem build_of_trimmedHosts_ne_nil (someHosts : trimmedHosts target.endpoint ≠ []) :
    (b.build target cc).1 =
        { cc with published := cc.published ++ [⟨(trimmedHosts target.endpoint).map Address.mk⟩] } ∧
      ((∃ r, (b.build target cc).2 = .ok r) ↔
        cc.updateState ⟨(trimmedHosts target.endpoint).map Address.mk⟩ = none) := by
  have endpointNe : target.endpoint ≠ [] := by
    rintro empty
    exact someHosts (by rw [empty]; exact trimmedHosts_nil)
  simp only [StaticResolverBuilder.build, endpointNe, if_false, appendHosts_nil_split,
    List.length_map, List.length_eq_zero, someHosts, ClientConn.update]
  cases cc.updateState ⟨(trimmedHosts target.endpoint).map Address.mk⟩
  · exact ⟨rfl, iff_of_true ⟨{}, rfl⟩ rfl⟩
  · simp

/-- `Build` publishes exactly the trimmed non-empty hosts, in order, with one
`UpdateState` call, and fails without publishing when there are none. -/
theorem build_publishes_trimmed_hosts :
    (trimmedHosts target.endpoint = [] →
      (b.build target cc).1 = cc ∧ ∃ err, (b.build target cc).2 = .error err) ∧
    (trimmedHosts target.endpoint ≠ [] →
      (b.build target cc).1 =
          { cc with published := cc.published ++ [⟨(trimmedHosts target.endpoint).map Address.mk⟩] } ∧
        ((∃ r, (b.build target cc).2 = .ok r) ↔
          cc.updateState ⟨(trimmedHosts target.endpoint).map Address.mk⟩ = none)) :=
  ⟨build_of_trimmedHosts_eq_nil b target cc, build_of_trimmedHosts_ne_nil b target cc⟩

/-- Every address `Build` adds to the connection is a non-empty slice of the
endpoint with no comma in it: one of the endpoint's comma-separated pieces
with the white space at its ends removed. -/
theorem build_publishes_trimmed_slices :
    ∀ state ∈ (b.build target cc).1.published.drop cc.published.length,
      ∀ address ∈ state.addresses,
        address.addr ≠ [] ∧ comma ∉ address.addr ∧ address.addr <:+: target.endpoint ∧
          ∃ piece ∈ split target.endpoint comma, IsTrimmed piece address.addr := by
  by_cases noHosts : trimmedHosts target.endpoint = []
  · simp [(build_of_trimmedHosts_eq_nil b target cc noHosts).1]
  · rw [(build_of_trimmedHosts_ne_nil b target cc noHosts).1, List.drop_left]
    simp only [List.mem_singleton, forall_eq, List.mem_map, forall_exists_index, and_imp]
    rintro address host member rfl
    exact mem_trimmedHosts member

def spacedHosts : Target :=
  ⟨[], [0x20, 0x61, 0x2C, 0x20, 0x2C, 0x62, 0x20]⟩

/-- A connection that accepts every state and has been given none yet. -/
def acceptingConn : ClientConn :=
  ⟨fun _ => none, []⟩

theorem build_publishes_trimmed_slices_spacedHosts :
    (⟨[⟨[0x61]⟩, ⟨[0x62]⟩]⟩ : ResolverState) ∈
        ((StaticResolverBuilder.mk).build spacedHosts acceptingConn).1.published.drop
          acceptingConn.published.length ∧
      (⟨[0x61]⟩ : Address) ∈ (⟨[⟨[0x61]⟩, ⟨[0x62]⟩]⟩ : ResolverState).addresses ∧
      (([0x61] : GoString) ≠ [] ∧ comma ∉ ([0x61] : GoString) ∧
        ([0x61] : GoString) <:+: spacedHosts.endpoint ∧
        ∃ piece ∈ split spacedHosts.endpoint comma, IsTrimmed piece [0x61]) :=
  have published : (⟨[⟨[0x61]⟩, ⟨[0x62]⟩]⟩ : ResolverState) ∈
      ((StaticResolverBuilder.mk).build spacedHosts acceptingConn).1.published.drop
        acceptingConn.published.length := by
    decide
  have member : (⟨[0x61]⟩ : Address) ∈ (⟨[⟨[0x61]⟩, ⟨[0x62]⟩]⟩ : ResolverState).addresses := by
    decide
  ⟨published, member,
    build_publishes_trimmed_slices {} spacedHosts acceptingConn _ published _ member⟩

/-- `Build` fails with the empty-endpoint error exactly when the endpoint is
empty, with the no-valid-addresses error exactly when it is not but no host
is left, and otherwise only with the error of `UpdateState`, wrapped. -/
theorem build_error_iff (err : GoError) :
    (b.build target cc).2 = .error err ↔
      (target.endpoint = [] ∧
          err = .quoted "static resolver: empty endpoint in target %q" target.url) ∨
        (target.endpoint ≠ [] ∧ trimmedHosts target.endpoint = [] ∧
          err = .quoted "static resolver: no valid addresses in %q" target.endpoint) ∨
        (trimmedHosts target.endpoint ≠ [] ∧ ∃ cause,
          cc.updateState ⟨(trimmedHosts target.endpoint).map Address.mk⟩ = some cause ∧
            err = .wrapped "static resolver: update state: %v" cause) := by
  by_cases empty : target.endpoint = []
  · simp [StaticResolverBuilder.build, empty, eq_comm]
  · by_cases noHosts : trimmedHosts target.endpoint = []
    · simp [StaticResolverBuilder.build, empty, noHosts, appendHosts_nil_split, eq_comm]
    · simp only [StaticResolverBuilder.build, empty, noHosts, appendHosts_nil_split, if_false,
        List.length_map, List.length_eq_zero, ClientConn.update, false_and, false_or, ne_eq,
        not_false_eq_true, true_and]
      cases cc.updateState ⟨(trimmedHosts target.endpoint).map Address.mk⟩ <;> simp [eq_comm]

end Build

end MongoShardingPoc.Loadbalancer
