import QApr.Interfaces.BackOffice
import QApr.Qt.Uuid

/-!
# The access of the back office

`initConsts` reads the address of the published interfaces from the environment, and
`initAccess` makes an api and a module of every entry of `staticInfoCache`.  The defaults
that `initConsts` fills in take the place of the host of the application.
-/

namespace QApr.Interfaces

open QApr.Library QApr.Application QApr.Qt

/-- The values of the environment entries; an absent one is empty or zero. -/
structure EnvEntries where
  aprProtocol : QByteArray
  aprDns : QByteArray
  aprPort : Int
  aprContextPath : QByteArray
  aprHeaders : QVariantHash

/-- The globals `APR_PROTOCOL`, `APR_DNS`, `APR_PORT`, `APR_CONTEXT_PATH` and
`APR_HEADERS`. -/
structure AprConsts where
  aprProtocol : QByteArray
  aprDns : QByteArray
  aprPort : Int
  /-- `none` is the null pointer of a global that was destroyed. -/
  aprContextPath : Option QByteArray
  aprHeaders : QVariantHash

/-- `initConsts`. -/
def initConsts (envs : EnvEntries) : AprConsts where
  aprProtocol := if envs.aprProtocol.isEmpty then "http".toList else envs.aprProtocol
  aprDns := if envs.aprDns.isEmpty then "localhost".toList else envs.aprDns
  aprPort := if envs.aprPort ≤ 0 then 80 else envs.aprPort
  aprContextPath :=
    some (if envs.aprContextPath.isEmpty then "/".toList else envs.aprContextPath)
  aprHeaders := envs.aprHeaders

/-- `QMfe::Host`. -/
@[ext] structure ApiHost where
  protocol : QByteArray
  hostName : QByteArray
  headers : QVariantHash
  port : Int
  basePath : QByteArray

/-- `QMfe::Path`. -/
structure ApiPath where
  methods : List QByteArray
  path : List Char
  deriving DecidableEq, Repr

/-- `QMfe::Api`. -/
structure Api where
  basePath : QByteArray
  display : QByteArray
  description : QByteArray
  host : ApiHost
  paths : List ApiPath

/-- `QMfe::Option`. -/
structure MenuOption where
  display : List Char
  description : List Char
  apiUuid : QUuid
  pathUuid : QUuid
  deriving DecidableEq

/-- `QMfe::Group`. -/
structure MenuGroup where
  display : List Char
  description : List Char
  options : List MenuOption
  deriving DecidableEq

/-- `QMfe::Module`. -/
structure MenuModule where
  order : Int
  display : QByteArray
  groups : List MenuGroup
  deriving DecidableEq

/-- What `initAccess` uses of other libraries. -/
structure AccessLibrary where
  chars : CharTable
  network : Network
  apiUuid : ApiPath → QUuid
  uuid : ApiPath → QUuid
  /-- `QMfe::Module::sortList`. -/
  sortList : List MenuModule → List MenuModule

section InitAccess

variable (library : AccessLibrary)

/-- The host that `initAccess` gives to the apis. -/
def localHost (consts : AprConsts) (host : HostPvt) (authorizationHeaders : QVariantHash) :
    ApiHost where
  protocol :=
    if consts.aprProtocol.isEmpty then Host.protocol library.network host
    else consts.aprProtocol
  hostName :=
    if consts.aprDns.isEmpty then Host.hostName library.network host else consts.aprDns
  headers :=
    if !authorizationHeaders.isEmpty then authorizationHeaders else consts.aprHeaders
  port := if consts.aprPort ≤ 0 then Host.port library.network host else consts.aprPort
  basePath :=
    -- The condition is the pointer to the global.
    match consts.aprContextPath with
    | some _ => Host.basePath host
    | none => []

/-- `QHash<QString, QMfe::Group *>`, with the groups that the pointers stand for. -/
abbrev GroupHash := List (List Char × MenuGroup)

/-- The name under which a group is found. -/
def groupKey (group : List Char) : List Char :=
  library.chars.trimmed (library.chars.toLower group)

/-- The body of the loop over the methods of a controller. -/
def addMethod (state : List ApiPath × GroupHash) (info : MethodInfo) :
    List ApiPath × GroupHash :=
  let (paths, groups) := state
  if info.group.isEmpty then (paths, groups)
  else
    let key := groupKey library info.group
    let created : MenuGroup := ⟨info.group, library.chars.trimmed info.group, []⟩
    let group := (groups.lookup key).getD created
    let groups := if (groups.lookup key).isNone then groups ++ [(key, created)] else groups
    let path : ApiPath := ⟨info.methods, info.path⟩
    let option : MenuOption :=
      ⟨info.name, info.description, library.apiUuid path, library.uuid path⟩
    let group := { group with options := group.options ++ [option] }
    (paths ++ [path],
      groups.map fun entry => if entry.1 = key then (key, group) else entry)

/-- The paths and the groups of a controller. -/
def methodsOf (controller : ControllerInfo) : List ApiPath × GroupHash :=
  controller.invokableMethod.foldl (addMethod library) ([], [])

/-- The api of a controller. -/
def apiOf (host : ApiHost) (controller : ControllerInfo) : Api where
  basePath := controller.basePath
  display := controller.display
  description := controller.description
  host
  paths := (methodsOf library controller).1

/-- The module of a controller, with the groups in the order of their keys. -/
def moduleOf (controller : ControllerInfo) : MenuModule :=
  let groups := (methodsOf library controller).2
  let keys := (groups.map Prod.fst).mergeSort CharTable.utf16Le
  { order := controller.order
    display := controller.display
    groups := keys.filterMap fun key => groups.lookup key }

/-- `initAccess`, with the apis and the modules that it puts in `access`. -/
def initAccess (consts : AprConsts) (host : HostPvt) (authorizationHeaders : QVariantHash)
    (staticInfoCache : List ControllerInfo) : List Api × List MenuModule :=
  let apiHost := localHost library consts host authorizationHeaders
  (staticInfoCache.map (apiOf library apiHost),
    library.sortList (staticInfoCache.map (moduleOf library)))

end InitAccess

/-! ## Where the address comes from -/

section Address

variable (library : AccessLibrary) (envs : EnvEntries) (host : HostPvt)

/-- The host of an api follows the environment, and then the host of the application. -/
structure FollowsHost (api : ApiHost) : Prop where
  protocol : api.protocol =
    if envs.aprProtocol = [] then Host.protocol library.network host else envs.aprProtocol
  hostName : api.hostName =
    if envs.aprDns = [] then Host.hostName library.network host else envs.aprDns
  port : api.port = if 0 < envs.aprPort then envs.aprPort else Host.port library.network host
  basePath : api.basePath =
    if envs.aprContextPath = [] then Host.basePath host else envs.aprContextPath

/-- The host of the application is the default where the environment has no entry, and
has the context path that the environment has. -/
structure Unnoticed : Prop where
  protocol : envs.aprProtocol = [] → Host.protocol library.network host = "http".toList
  hostName : envs.aprDns = [] → Host.hostName library.network host = "localhost".toList
  port : envs.aprPort ≤ 0 → Host.port library.network host = 80
  basePath : envs.aprContextPath ≠ [] → Host.basePath host = envs.aprContextPath

variable {library envs host}

/-- A default that was filled in is never empty, so it is never replaced. -/
theorem filled_eq {default : QByteArray} (nonempty : default ≠ []) (value other : QByteArray) :
    (if (if value.isEmpty then default else value).isEmpty then other
      else if value.isEmpty then default else value) =
        if value = [] then default else value := by
  cases value <;> simp [nonempty]

/-- The default port is never replaced either. -/
theorem filledPort_eq (value other : Int) :
    (if (if value ≤ 0 then 80 else value) ≤ 0 then other
      else if value ≤ 0 then 80 else value) = if 0 < value then value else 80 := by
  by_cases set : 0 < value
  · have notUnset := Int.not_le.mpr set
    rw [if_neg notUnset, if_neg notUnset, if_pos set]
  · rw [if_pos (Int.not_lt.mp set), if_neg set]
    rfl

/-- The host that is published: of the application it has only the base path. -/
theorem localHost_initConsts (authorizationHeaders : QVariantHash) :
    localHost library (initConsts envs) host authorizationHeaders =
      { protocol := if envs.aprProtocol = [] then "http".toList else envs.aprProtocol
        hostName := if envs.aprDns = [] then "localhost".toList else envs.aprDns
        headers :=
          if !authorizationHeaders.isEmpty then authorizationHeaders else envs.aprHeaders
        port := if 0 < envs.aprPort then envs.aprPort else 80
        basePath := Host.basePath host } := by
  apply ApiHost.ext
  · exact filled_eq (by decide) envs.aprProtocol _
  · exact filled_eq (by decide) envs.aprDns _
  · rfl
  · exact filledPort_eq envs.aprPort _
  · rfl

/-- Every api has the published host. -/
theorem host_of_mem_apis {consts : AprConsts} {authorizationHeaders : QVariantHash}
    {cache : List ControllerInfo} {api : Api}
    (member : api ∈ (initAccess library consts host authorizationHeaders cache).1) :
    api.host = localHost library consts host authorizationHeaders := by
  have ⟨_, _, isApi⟩ := List.mem_map.mp member
  rw [← isApi]
  rfl

theorem followsHost_localHost_iff (authorizationHeaders : QVariantHash) :
    FollowsHost library envs host
        (localHost library (initConsts envs) host authorizationHeaders) ↔
      Unnoticed library envs host := by
  rw [localHost_initConsts]
  constructor
  · intro follows
    constructor
    · intro unset
      simpa [unset] using follows.protocol.symm
    · intro unset
      simpa [unset] using follows.hostName.symm
    · intro unset
      simpa [Int.not_lt.mpr unset] using follows.port.symm
    · intro set
      simpa [set] using follows.basePath
  · intro unnoticed
    constructor
    · dsimp only
      split
      next unset => exact (unnoticed.protocol unset).symm
      next => rfl
    · dsimp only
      split
      next unset => exact (unnoticed.hostName unset).symm
      next => rfl
    · dsimp only
      split
      next => rfl
      next unset => exact (unnoticed.port (Int.not_lt.mp unset)).symm
    · dsimp only
      split
      next => rfl
      next set => exact unnoticed.basePath set

/-- The hosts of the apis follow the environment and the application exactly if there are
no apis, or what goes wrong is not noticed. -/
theorem followsHost_iff (library : AccessLibrary) (envs : EnvEntries) (host : HostPvt)
    (authorizationHeaders : QVariantHash) (cache : List ControllerInfo) :
    (∀ api ∈ (initAccess library (initConsts envs) host authorizationHeaders cache).1,
        FollowsHost library envs host api.host) ↔
      cache = [] ∨ Unnoticed library envs host := by
  rw [← @followsHost_localHost_iff library envs host authorizationHeaders]
  cases cache with
  | nil => simp [initAccess]
  | cons controller rest =>
      rw [or_iff_right (List.cons_ne_nil _ _)]
      constructor
      · intro follows
        exact follows (apiOf library _ controller) List.mem_cons_self
      · intro follows api member
        rw [host_of_mem_apis member]
        exact follows

end Address

/-- A library without modules. -/
def AccessLibrary.ascii : AccessLibrary where
  chars := CharTable.ascii
  network := ⟨"http".toList, "localhost".toList, 80⟩
  apiUuid _ := .null
  uuid _ := .null
  sortList modules := modules

/-- A host of the application that nothing in the environment stands for. -/
def salesHost : HostPvt := ⟨"https".toList, "sales.example".toList, 443, [], "/api".toList⟩

/-- The protocol of the application is not published. -/
theorem not_followsHost_sales :
    ¬∀ api ∈ (initAccess .ascii (initConsts ⟨[], [], 0, [], []⟩) salesHost []
        [(Controller.named "Sales" none).entry]).1,
      FollowsHost .ascii ⟨[], [], 0, [], []⟩ salesHost api.host := by
  intro follows
  have protocol := (follows _ List.mem_cons_self).protocol
  revert protocol
  decide

end QApr.Interfaces
