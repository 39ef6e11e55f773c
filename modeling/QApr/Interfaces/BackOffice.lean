import QApr.Application.Host
import QApr.Library.Sort

/-!
# The controllers of the back office

`initControllersCache` instantiates the controllers of a server, puts them in the order
that the annotation `apiNameOrder` gives, and then sorts the ones to be published by their
`apiOrder`.  The order in which a hash yields its values and the order that `std::sort`
gives to equal elements are left open.
-/

namespace QApr.Interfaces

open QApr.Library QApr.Application

/-- `QRpc::Controller::MethodInfo`. -/
structure MethodInfo where
  methods : List QByteArray
  path : List Char
  name : List Char
  description : List Char
  group : List Char
  deriving DecidableEq, Repr

/-- `QRpc::Controller`, with its annotations; an absent text is empty. -/
structure Controller where
  className : QByteArray
  apiName : QByteArray
  apiBasePath : QByteArray
  apiDescription : QByteArray
  apiOrder : Option Int
  invokableMethod : List MethodInfo
  deriving DecidableEq, Repr

/-- A class of `QRpc::Server::controllers`.  It has no instance where `newInstance` fails
or yields no controller, as for `QObject` itself. -/
structure ControllerClass where
  newInstance : Option Controller
  deriving DecidableEq, Repr

/-- `ControllerInfo`. -/
structure ControllerInfo where
  basePath : QByteArray
  display : QByteArray
  description : QByteArray
  order : Int
  invokableMethod : List MethodInfo
  deriving DecidableEq, Repr

/-- An interface of the back office: the classes of its server, none without a server,
and its annotation `apiNameOrder`, which is empty when it is absent. -/
structure BackOffice where
  metaControllers : List ControllerClass
  apiNameOrder : List QByteArray
  deriving DecidableEq, Repr

/-- `QMultiHash<QByteArray, QRpc::Controller*>`, in the order of insertion. -/
abbrev ControllerHash := List (QByteArray × Controller)

namespace ControllerHash

variable (hash : ControllerHash)

/-- `QMultiHash::values` of a key, the most recent first. -/
def values (key : QByteArray) : List Controller :=
  ((List.filter (fun entry => entry.1 = key) hash).map Prod.snd).reverse

/-- `QMultiHash::value` of a key; `none` is the null pointer. -/
def value (key : QByteArray) : Option Controller := (values hash key).head?

/-- `QMultiHash::remove`. -/
def remove (key : QByteArray) : ControllerHash :=
  List.filter (fun entry => ¬entry.1 = key) hash

/-- The loop of `controllers` over `apiNameOrder`, which moves controllers from the hash to
the result. -/
def take (hash : ControllerHash) : List QByteArray → List Controller × ControllerHash
  | [] => ([], hash)
  | item :: rest =>
      let orderName := CharTable.ascii.trimmed (CharTable.ascii.toLower item)
      match value hash orderName with
      | none => take hash rest
      | some _ =>
          let list := values hash orderName
          let (taken, left) := take (remove hash orderName) rest
          (list ++ taken, left)

end ControllerHash

/-- The name under which `controllers` inserts a controller. -/
def Controller.nameOrder (controller : Controller) : QByteArray :=
  let nameOrder := CharTable.ascii.toLower (CharTable.ascii.trimmed controller.apiName)
  if nameOrder.isEmpty then controller.className else nameOrder

/-- The entry of a controller in the cache. -/
def Controller.entry (controller : Controller) : ControllerInfo where
  basePath := CharTable.ascii.trimmed controller.apiBasePath
  display := CharTable.ascii.trimmed controller.apiName
  description := CharTable.ascii.trimmed controller.apiDescription
  order := controller.apiOrder.getD (-1)
  invokableMethod := controller.invokableMethod

/-- The body of the loop of `initControllersCache`, with the entry that it appends. -/
def Controller.info (controller : Controller) : Option ControllerInfo :=
  let displayName := CharTable.ascii.trimmed controller.apiName
  if displayName.isEmpty then none
  else if controller.invokableMethod.isEmpty then none
  else if controller.entry.display.isEmpty then none
  else some controller.entry

namespace BackOffice

variable (backOffice : BackOffice)

/-- The controllers that can be instantiated. -/
def instances : List Controller :=
  backOffice.metaControllers.filterMap ControllerClass.newInstance

/-- The hash that `controllers` fills. -/
def controllerHash : ControllerHash :=
  backOffice.instances.map fun controller => (controller.nameOrder, controller)

/-- `controllers`, where the hash yields the controllers that are left in the given
order. -/
def controllers (leftovers : List Controller) : List Controller :=
  if backOffice.apiNameOrder.isEmpty then []
  else (backOffice.controllerHash.take backOffice.apiNameOrder).1 ++ leftovers

/-- An order in which the hash yields what is left in it. -/
def Leftovers (leftovers : List Controller) : Prop :=
  leftovers.Perm ((backOffice.controllerHash.take backOffice.apiNameOrder).2.map Prod.snd)

/-- `initControllersCache` takes the cache to another one. -/
def InitControllersCache (cache after : List ControllerInfo) : Prop :=
  if !cache.isEmpty then after = cache
  else
    ∃ leftovers, backOffice.Leftovers leftovers ∧
      SortsTo ControllerInfo.order
        (cache ++ (backOffice.controllers leftovers).filterMap Controller.info) after

/-- A controller that should be published: its name is not blank, and it has a method. -/
def Eligible (controller : Controller) : Prop :=
  isBlank controller.apiName = false ∧ controller.invokableMethod ≠ []

instance (controller : Controller) : Decidable (Eligible controller) :=
  inferInstanceAs (Decidable (_ ∧ _))

/-- The entries that should be published. -/
def published : List ControllerInfo :=
  (backOffice.instances.filter fun controller => Eligible controller).map Controller.entry

/-- Every eligible controller is published once and nothing else is, and what has been
published stays. -/
structure Publishes : Prop where
  exact : ∀ after, backOffice.InitControllersCache [] after → after.Perm backOffice.published
  stable : ∀ after again, backOffice.InitControllersCache [] after → after ≠ [] →
    backOffice.InitControllersCache after again → again = after

end BackOffice

/-! ## No controller is lost -/

theorem values_append_remove (hash : ControllerHash) (key : QByteArray) :
    (hash.values key ++ (hash.remove key).map Prod.snd).Perm (hash.map Prod.snd) := by
  have split := (List.filter_append_perm (fun entry => decide (entry.1 = key)) hash).map Prod.snd
  rw [List.map_append] at split
  apply List.Perm.trans _ split
  rw [ControllerHash.remove]
  simp only [decide_not]
  exact (List.reverse_perm _).append_right _

/-- The loop over the names moves controllers, whatever the names are. -/
theorem take_perm (hash : ControllerHash) (names : List QByteArray) :
    ((hash.take names).1 ++ (hash.take names).2.map Prod.snd).Perm (hash.map Prod.snd) := by
  induction names generalizing hash with
  | nil => exact .refl _
  | cons item rest ih =>
      rw [ControllerHash.take]
      split
      · exact ih hash
      · dsimp only
        rw [List.append_assoc]
        exact (List.Perm.append_left _ (ih _)).trans (values_append_remove hash _)

namespace BackOffice

variable {backOffice : BackOffice}

theorem controllers_perm (order : backOffice.apiNameOrder ≠ []) {leftovers : List Controller}
    (yields : backOffice.Leftovers leftovers) :
    (backOffice.controllers leftovers).Perm backOffice.instances := by
  have instances : backOffice.controllerHash.map Prod.snd = backOffice.instances := by
    simp [controllerHash, Function.comp_def]
  rw [controllers, if_neg (by simpa using order), ← instances]
  exact (List.Perm.append_left _ yields).trans (take_perm _ _)

/-- The loop of `initControllersCache` appends the entries of eligible controllers. -/
theorem info_eq (controller : Controller) :
    controller.info = if Eligible controller then some controller.entry else none := by
  have display : controller.entry.display.isEmpty = isBlank controller.apiName := rfl
  have name : (CharTable.ascii.trimmed controller.apiName).isEmpty =
    isBlank controller.apiName := rfl
  rw [Controller.info, display, name]
  cases blank : isBlank controller.apiName with
  | true => simp [Eligible, blank]
  | false => cases methods : controller.invokableMethod <;> simp [Eligible, blank, methods]

theorem filterMap_info (controllers : List Controller) :
    controllers.filterMap Controller.info =
      (controllers.filter fun controller => Eligible controller).map Controller.entry := by
  induction controllers with
  | nil => rfl
  | cons controller rest ih =>
      rw [List.filterMap_cons, List.filter_cons, ih, info_eq]
      by_cases eligible : Eligible controller <;> simp [eligible]

/-- With an order, the cache is a sort of the entries that should be published. -/
theorem initControllersCache_iff (order : backOffice.apiNameOrder ≠ [])
    (after : List ControllerInfo) :
    backOffice.InitControllersCache [] after ↔
      SortsTo ControllerInfo.order backOffice.published after := by
  have entries {leftovers : List Controller} (yields : backOffice.Leftovers leftovers) :
      ((backOffice.controllers leftovers).filterMap Controller.info).Perm
        backOffice.published := by
    rw [published, ← filterMap_info]
    exact (controllers_perm order yields).filterMap _
  rw [InitControllersCache, if_neg (by simp)]
  constructor
  · intro ⟨_, yields, sorts⟩
    exact ⟨sorts.perm.trans (entries yields), sorts.pairwise⟩
  · intro sorts
    exact ⟨_, .refl _, sorts.perm.trans (entries (.refl _)).symm, sorts.pairwise⟩

/-- Without an order nothing is published. -/
theorem initControllersCache_of_no_order (noOrder : backOffice.apiNameOrder = [])
    (after : List ControllerInfo) : backOffice.InitControllersCache [] after ↔ after = [] := by
  rw [InitControllersCache, if_neg (by simp)]
  have none (leftovers : List Controller) : backOffice.controllers leftovers = [] := by
    rw [controllers, noOrder]
    rfl
  constructor
  · intro ⟨leftovers, _, sorts⟩
    have perm := sorts.perm
    rw [none] at perm
    exact perm.eq_nil
  · intro empty
    refine ⟨_, .refl _, ?_⟩
    rw [none, empty]
    exact ⟨.refl _, .nil⟩

/-- A cache that is not empty stays as it is. -/
theorem initControllersCache_of_cached {cache after : List ControllerInfo}
    (cached : cache ≠ []) (init : backOffice.InitControllersCache cache after) :
    after = cache := by
  rw [InitControllersCache, if_pos (by simpa using cached)] at init
  exact init

/-- All eligible controllers are published exactly if the interface has an order, or
there are none. -/
theorem publishes_iff (backOffice : BackOffice) :
    backOffice.Publishes ↔
      backOffice.apiNameOrder ≠ [] ∨
        ∀ controller ∈ backOffice.instances, ¬Eligible controller := by
  have stable : ∀ after again, backOffice.InitControllersCache [] after → after ≠ [] →
      backOffice.InitControllersCache after again → again = after :=
    fun _ _ _ cached init => initControllersCache_of_cached cached init
  by_cases order : backOffice.apiNameOrder = []
  · have published : backOffice.published = [] ↔
        ∀ controller ∈ backOffice.instances, ¬Eligible controller := by
      simp [published, List.filter_eq_nil_iff]
    rw [or_iff_right (not_not_intro order), ← published]
    constructor
    · intro publishes
      exact (publishes.exact [] ((initControllersCache_of_no_order order []).mpr rfl)).symm.eq_nil
    · intro none
      refine ⟨fun after init => ?_, stable⟩
      rw [(initControllersCache_of_no_order order after).mp init, none]
  · apply iff_of_true _ (Or.inl order)
    exact ⟨fun after init => ((initControllersCache_iff order after).mp init).perm, stable⟩

end BackOffice

/-- A controller with one method. -/
def Controller.named (apiName : String) (apiOrder : Option Int) : Controller where
  className := "Controller".toList
  apiName := apiName.toList
  apiBasePath := []
  apiDescription := []
  apiOrder
  invokableMethod := [⟨[], [], [], [], []⟩]

/-- A controller, and no order. -/
def unordered : BackOffice := ⟨[⟨some (.named "Sales" none)⟩], []⟩

/-- The controller is not published. -/
theorem not_publishes_unordered : ¬unordered.Publishes := by
  intro publishes
  have init : unordered.InitControllersCache [] [] :=
    (BackOffice.initControllersCache_of_no_order rfl []).mpr rfl
  have length := (publishes.exact [] init).length_eq
  revert length
  decide

/-! ## The declared order -/

/-- The position of the first occurrence of the name of an entry in `apiNameOrder`, which
is the length where it does not occur. -/
def BackOffice.rank (backOffice : BackOffice) (info : ControllerInfo) : Nat :=
  (backOffice.apiNameOrder.map CharTable.ascii.normal).idxOf
    (CharTable.ascii.normal info.display)

/-- Entries come by their `apiOrder`, and among equal ones by the declared names. -/
def BackOffice.Ordered (backOffice : BackOffice) (cache : List ControllerInfo) : Prop :=
  cache.Pairwise fun first second => first.order < second.order ∨
    first.order = second.order ∧ backOffice.rank first ≤ backOffice.rank second

/-- Whatever order the sort gives to equal entries, the cache is in the declared order. -/
def BackOffice.InDeclaredOrder (backOffice : BackOffice) : Prop :=
  ∀ after, backOffice.InitControllersCache [] after → backOffice.Ordered after

/-- The cache is in the declared order exactly if controllers with equal `apiOrder` have
the same position in `apiNameOrder`. -/
theorem BackOffice.inDeclaredOrder_iff (backOffice : BackOffice)
    (order : backOffice.apiNameOrder ≠ []) :
    backOffice.InDeclaredOrder ↔
      ∀ first ∈ backOffice.published, ∀ second ∈ backOffice.published,
        first.order = second.order → backOffice.rank first = backOffice.rank second := by
  simp only [InDeclaredOrder, initControllersCache_iff order]
  exact sortsTo_refines_iff backOffice.rank

/-- Two controllers with the same `apiOrder`. -/
def tied : BackOffice where
  metaControllers := [⟨some (.named "Sales" none)⟩, ⟨some (.named "Stock" none)⟩]
  apiNameOrder := ["stock".toList, "sales".toList]

/-- Two controllers with different values of `apiOrder`. -/
def numbered : BackOffice where
  metaControllers := [⟨some (.named "Sales" (some 2))⟩, ⟨some (.named "Stock" (some 1))⟩]
  apiNameOrder := ["sales".toList]

/-- The sort may turn the declared order around. -/
theorem not_inDeclaredOrder_tied : ¬tied.InDeclaredOrder := by
  intro ordered
  have init : tied.InitControllersCache []
      [(Controller.named "Sales" none).entry, (Controller.named "Stock" none).entry] :=
    (BackOffice.initControllersCache_iff (by decide) _).mpr ⟨.refl _, by decide⟩
  have inOrder := List.pairwise_pair.mp (ordered _ init)
  revert inOrder
  decide

/-- The sort keeps controllers with different values in order. -/
theorem inDeclaredOrder_numbered : numbered.InDeclaredOrder :=
  (numbered.inDeclaredOrder_iff (by decide)).mpr (by decide)

end QApr.Interfaces
