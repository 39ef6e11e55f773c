import QApr.Interfaces.Access
import QApr.Library.Grouping

/-!
# The groups of a module

`initAccess` gives every method that has a group one path of the api and one option of the
module.  The options are in groups by the names that the groups have in lower case and
without blanks around them.
-/

namespace QApr.Interfaces

open QApr.Library QApr.Application QApr.Qt

section Methods

variable (library : AccessLibrary) (controller : ControllerInfo)

/-- The path of a method. -/
def pathOf (info : MethodInfo) : ApiPath := ⟨info.methods, info.path⟩

/-- The option of a method. -/
def optionOf (info : MethodInfo) : MenuOption where
  display := info.name
  description := info.description
  apiUuid := library.apiUuid (pathOf info)
  pathUuid := library.uuid (pathOf info)

/-- The methods of a controller that have a group. -/
def grouped : List MethodInfo :=
  controller.invokableMethod.filter fun info => !info.group.isEmpty

/-- The methods of a controller whose group has a name. -/
def membersOf (name : List Char) : List MethodInfo :=
  (grouped controller).filter fun info => groupKey library info.group = name

/-- The group with a name has the options of its methods in their order, and the spelling
of the first one. -/
structure IsGroup (name : List Char) (group : MenuGroup) : Prop where
  options : group.options = (membersOf library controller name).map (optionOf library)
  display : (membersOf library controller name).head?.map MethodInfo.group =
    some group.display

/-- The groups of a module have the given names, and the methods of the controller are
distributed to them. -/
structure MenuPartition (api : Api) (menu : MenuModule) (names : List (List Char)) : Prop where
  sorted : names.Pairwise CharTable.Utf16Lt
  mem_names : ∀ name,
    name ∈ names ↔ ∃ info ∈ grouped controller, groupKey library info.group = name
  groups : List.Forall₂ (IsGroup library controller) names menu.groups
  options : (menu.groups.flatMap MenuGroup.options).Perm
    ((grouped controller).map (optionOf library))
  paths : api.paths = (grouped controller).map pathOf

end Methods

/-! ## The loop over the methods -/

section Loop

variable (library : AccessLibrary)

/-- The group that a method creates. -/
def createGroup (info : MethodInfo) : MenuGroup :=
  ⟨info.group, library.chars.trimmed info.group, []⟩

/-- `QMfe::Group::option` with the option of a method. -/
def addOption (group : MenuGroup) (info : MethodInfo) : MenuGroup :=
  { group with options := group.options ++ [optionOf library info] }

/-- The groups of methods, by their names. -/
def menuTable : List MethodInfo → GroupHash :=
  groupTable (fun info => groupKey library info.group) (createGroup library)
    (addOption library)

variable {library}

/-- The options of a group, in the order of the methods. -/
theorem foldl_addOption (group : MenuGroup) (methods : List MethodInfo) :
    methods.foldl (addOption library) group =
      { group with options := group.options ++ methods.map (optionOf library) } := by
  induction methods generalizing group with
  | nil => simp
  | cons info rest ih =>
      rw [List.foldl_cons, ih]
      simp [addOption]

theorem addMethod_of_noGroup (state : List ApiPath × GroupHash) {info : MethodInfo}
    (noGroup : info.group.isEmpty = true) : addMethod library state info = state :=
  if_pos noGroup

/-- One path and one option. -/
theorem addMethod_of_group (state : List ApiPath × GroupHash) {info : MethodInfo}
    (hasGroup : info.group.isEmpty = false) :
    addMethod library state info =
      (state.1 ++ [pathOf info],
        putInGroup (fun info => groupKey library info.group) (createGroup library)
          (addOption library) state.2 info) := by
  rw [addMethod, hasGroup]
  rfl

/-- The two collections that the loop leaves. -/
theorem foldl_addMethod (methods : List MethodInfo) :
    methods.foldl (addMethod library) ([], []) =
      ((methods.filter fun info => !info.group.isEmpty).map pathOf,
        menuTable library (methods.filter fun info => !info.group.isEmpty)) := by
  induction methods using List.reverseRecOn with
  | nil => rfl
  | append_singleton earlier info ih =>
      rw [List.foldl_append, ih, List.foldl_cons, List.foldl_nil, List.filter_append,
        List.filter_singleton]
      cases noGroup : info.group.isEmpty with
      | true =>
          rw [addMethod_of_noGroup _ noGroup]
          simp
      | false =>
          rw [addMethod_of_group _ noGroup]
          simp [menuTable, groupTable]

theorem methodsOf_eq (controller : ControllerInfo) :
    methodsOf library controller =
      ((grouped controller).map pathOf, menuTable library (grouped controller)) :=
  foldl_addMethod controller.invokableMethod

end Loop

/-! ## What the loop leaves -/

section Groups

variable {library : AccessLibrary} {controller : ControllerInfo}

/-- The group of a name, if it has methods, is as it should be. -/
theorem isGroup_of_lookup {name : List Char} {group : MenuGroup}
    (found : (menuTable library (grouped controller)).lookup name = some group) :
    IsGroup library controller name group := by
  rw [menuTable, lookup_groupTable] at found
  change collect _ _ (membersOf library controller name) = _ at found
  cases members : membersOf library controller name with
  | nil =>
      rw [members] at found
      contradiction
  | cons first rest =>
      rw [members, collect, foldl_addOption] at found
      cases found
      constructor
      · rw [members]
        rfl
      · rw [members]
        rfl

/-- The keys of the groups in their order. -/
def menuNames (library : AccessLibrary) (controller : ControllerInfo) : List (List Char) :=
  ((methodsOf library controller).2.map Prod.fst).mergeSort CharTable.utf16Le

theorem sortsTo_menuNames :
    SortsTo (fun name : List Char => name.flatMap CharTable.utf16)
      ((menuTable library (grouped controller)).map Prod.fst)
      (menuNames library controller) := by
  rw [menuNames, methodsOf_eq]
  exact sortsTo_mergeSort _ _

theorem mem_menuNames_iff (name : List Char) :
    name ∈ menuNames library controller ↔
      name ∈ (menuTable library (grouped controller)).map Prod.fst :=
  sortsTo_menuNames.perm.mem_iff

theorem pairwise_menuNames : (menuNames library controller).Pairwise CharTable.Utf16Lt :=
  sortsTo_menuNames.pairwise_lt (nodup_keys_groupTable _) CharTable.flatMap_utf16_injective

theorem nodup_menuNames : (menuNames library controller).Nodup :=
  sortsTo_menuNames.perm.nodup_iff.mpr (nodup_keys_groupTable _)

/-- The loop over the keys finds a group under each of them. -/
theorem forall₂_menuNames :
    List.Forall₂ (IsGroup library controller) (menuNames library controller)
      (moduleOf library controller).groups := by
  have found : ∀ name ∈ menuNames library controller,
      ∃ group, (menuTable library (grouped controller)).lookup name = some group := by
    intro name member
    rw [mem_menuNames_iff, mem_keys_iff] at member
    exact Option.isSome_iff_exists.mp member
  have groups : (moduleOf library controller).groups =
      (menuNames library controller).filterMap fun name =>
        (menuTable library (grouped controller)).lookup name := by
    rw [moduleOf, menuNames, methodsOf_eq]
  rw [groups]
  exact forall₂_filterMap found fun _ _ => isGroup_of_lookup

/-- Every method with a group has one of the names. -/
theorem mem_menuNames_iff_exists (name : List Char) :
    name ∈ menuNames library controller ↔
      ∃ info ∈ grouped controller, groupKey library info.group = name := by
  rw [mem_menuNames_iff]
  exact mem_keys_groupTable_iff _ name

/-- All options are in the groups, and each of them once. -/
theorem options_perm :
    ((moduleOf library controller).groups.flatMap MenuGroup.options).Perm
      ((grouped controller).map (optionOf library)) := by
  have contents := forall₂_menuNames.imp fun name group =>
    @IsGroup.options library controller name group
  rw [flatMap_eq_of_forall₂ contents, ← List.map_flatMap]
  apply List.Perm.map
  apply flatMap_filter_perm nodup_menuNames
  intro info member
  exact (mem_menuNames_iff_exists _).mpr ⟨info, member, rfl⟩

theorem menuPartition_apiOf (host : ApiHost) :
    MenuPartition library controller (apiOf library host controller)
      (moduleOf library controller) (menuNames library controller) where
  sorted := pairwise_menuNames
  mem_names := mem_menuNames_iff_exists
  groups := forall₂_menuNames
  options := options_perm
  paths := by rw [apiOf, methodsOf_eq]

end Groups

/-- Of every entry of the cache the api has the paths of the methods with groups, and the
module has their options, each in the group with its name. -/
theorem initAccess_menuPartition (library : AccessLibrary) (consts : AprConsts)
    (host : HostPvt) (authorizationHeaders : QVariantHash)
    (staticInfoCache : List ControllerInfo) :
    (initAccess library consts host authorizationHeaders staticInfoCache).2 =
        library.sortList (staticInfoCache.map (moduleOf library)) ∧
      List.Forall₂
        (fun controller api => ∃ names,
          MenuPartition library controller api (moduleOf library controller) names)
        staticInfoCache
        (initAccess library consts host authorizationHeaders staticInfoCache).1 := by
  constructor
  · rfl
  · apply List.forall₂_map_right_iff.mpr
    apply List.forall₂_same.mpr
    intro controller _
    exact ⟨_, menuPartition_apiOf _⟩

end QApr.Interfaces
