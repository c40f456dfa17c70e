import ParseX.Validator.ReferenceFindings

/-! # Nodes that share a path

The path index keeps the first node of a path and leaves collisions to the
uniqueness check, which compares the children of one parent. -/
namespace ParseX
open Cpp

/-- A named node: its file and its position below it, level by level. -/
structure PlacedNode where
  place : List Nat
  path : String
  node : RawNode

/-- The named nodes of a tree that itself stands at `place`. -/
inductive PlacedIn : RawNode → String → List Nat → PlacedNode → Prop where
  | here {node : RawNode} {basePath name : String} {place : List Nat} :
      scopeName node = some name →
      PlacedIn node basePath place ⟨place, basePath ++ "/" ++ name, node⟩
  | inside {node child : RawNode} {basePath : String} {place : List Nat} {x : PlacedNode}
      (position : Nat) : node.children[position]? = some child → child.tagName ≠ "SHORT-NAME" →
      PlacedIn child (scopePath node basePath) (place ++ [position]) x →
      PlacedIn node basePath place x

/-- Different children of one parent. -/
def PlacedNode.Siblings (x y : PlacedNode) : Prop :=
  x.place ≠ y.place ∧ x.place.dropLast = y.place.dropLast ∧ 1 < x.place.length

def PlacedNode.BothPackages (x y : PlacedNode) : Prop :=
  x.node.tagName = "AR-PACKAGE" ∧ y.node.tagName = "AR-PACKAGE"

variable {node : RawNode} {basePath : String} {place : List Nat} {x y : PlacedNode}

theorem PlacedIn.isPrefix (h : PlacedIn node basePath place x) : place <+: x.place := by
  induction h with
  | here => exact List.prefix_rfl
  | inside position _ _ _ ih => exact (List.prefix_append _ _).trans ih

/-- Only the tree itself stands at its own place. -/
theorem PlacedIn.of_length (h : PlacedIn node basePath place x)
    (hlength : x.place.length ≤ place.length) :
    ∃ name, scopeName node = some name ∧ x = ⟨place, basePath ++ "/" ++ name, node⟩ := by
  cases h with
  | here hname => exact ⟨_, hname, rfl⟩
  | inside position _ _ hx =>
    have := hx.isPrefix.length_le
    rw [List.length_append, List.length_singleton] at this
    omega

/-- A place below another has one next position. -/
theorem position_unique {front rest : List Nat} {i j : Nat} (hi : front ++ [i] <+: rest)
    (hj : front ++ [j] <+: rest) : i = j := by
  have heq := List.prefix_of_prefix_length_le hi hj (by simp)
  have := heq.eq_of_length (by simp)
  simpa using this

/-- A place holds one node. -/
theorem PlacedIn.unique (hx : PlacedIn node basePath place x) :
    PlacedIn node basePath place y → x.place = y.place → x = y := by
  induction hx with
  | @here node basePath name place hname =>
    intro hy hplace
    obtain ⟨other, hother, rfl⟩ := hy.of_length (le_of_eq (congrArg List.length hplace.symm))
    rw [hname] at hother
    rw [Option.some.inj hother]
  | @inside node child basePath place x i hchild htag hx ih =>
    intro hy hplace
    cases hy with
    | here hname =>
      have := hx.isPrefix.length_le
      rw [hplace, List.length_append, List.length_singleton] at this
      dsimp only at this
      omega
    | inside j hother _ hy =>
      obtain rfl := position_unique hx.isPrefix (hplace ▸ hy.isPrefix)
      rw [hchild] at hother
      obtain rfl := Option.some.inj hother
      exact ih hy hplace

/-! ## The check of one tree -/

/-- Distinct results of `filterMap`, by position. -/
theorem nodup_filterMap_iff {A B : Type} {f : A → Option B} {items : List A} :
    (items.filterMap f).Nodup ↔ ∀ (i j : Nat) (a b : A) (value : B), items[i]? = some a →
      items[j]? = some b → f a = some value → f b = some value → i = j := by
  rw [List.nodup_iff_pairwise_ne, List.pairwise_filterMap, List.pairwise_iff_getElem]
  constructor
  · intro h i j a b value hi hj ha hb
    obtain ⟨hilt, rfl⟩ := List.getElem?_eq_some_iff.mp hi
    obtain ⟨hjlt, rfl⟩ := List.getElem?_eq_some_iff.mp hj
    by_contra hne
    rcases Nat.lt_or_gt_of_ne hne with hlt | hlt
    · exact h i j hilt hjlt hlt value ha value hb rfl
    · exact h j i hjlt hilt hlt value hb value ha rfl
  · intro h i j hi hj hlt value ha other hb heq
    subst heq
    exact absurd (h i j _ _ value (List.getElem?_eq_getElem hi) (List.getElem?_eq_getElem hj) ha hb)
      (Nat.ne_of_lt hlt)

/-- The name under which a child is compared with its siblings. -/
def childName (child : RawNode) : Option String :=
  if child.tagName == "SHORT-NAME" then none else scopeName child

theorem childName_eq_some {child : RawNode} {name : String} :
    childName child = some name ↔ child.tagName ≠ "SHORT-NAME" ∧ scopeName child = some name := by
  rw [childName]
  by_cases htag : child.tagName = "SHORT-NAME" <;> simp [htag]

theorem namedChildren_fst (node : RawNode) :
    (namedChildren node).map Prod.fst = node.children.filterMap childName := by
  rw [namedChildren, List.map_filterMap]
  refine List.filterMap_congr fun child _ => ?_
  rw [childName]
  split
  · rfl
  · cases scopeName child <;> rfl

theorem path_inj {base name other : String} (h : base ++ "/" ++ name = base ++ "/" ++ other) :
    name = other := by
  have hletters := congrArg String.toList h
  simp only [String.toList_append] at hletters
  exact String.toList_inj.mp (List.append_cancel_left hletters)

/-- The trees below different children meet as siblings only in the children. -/
theorem PlacedIn.siblings_of_ne {first second : RawNode} {i j : Nat} (hij : i ≠ j)
    (hx : PlacedIn first basePath (place ++ [i]) x)
    (hy : PlacedIn second basePath (place ++ [j]) y) (hsiblings : x.Siblings y) :
    x.place.length ≤ (place ++ [i]).length ∧ y.place.length ≤ (place ++ [j]).length := by
  obtain ⟨hne, hparent, -⟩ := hsiblings
  have hlength : x.place.length - 1 = y.place.length - 1 := by
    have := congrArg List.length hparent
    rwa [List.length_dropLast, List.length_dropLast] at this
  have hxlength := hx.isPrefix.length_le
  have hylength := hy.isPrefix.length_le
  simp only [List.length_append, List.length_singleton] at hxlength hylength ⊢
  by_contra hlong
  -- a longer place keeps its position in the common parent
  have hx' : place ++ [i] <+: x.place.dropLast :=
    List.prefix_of_prefix_length_le hx.isPrefix (List.dropLast_prefix _) (by
      simp only [List.length_append, List.length_singleton, List.length_dropLast]
      omega)
  have hy' : place ++ [j] <+: y.place.dropLast :=
    List.prefix_of_prefix_length_le hy.isPrefix (List.dropLast_prefix _) (by
      simp only [List.length_append, List.length_singleton, List.length_dropLast]
      omega)
  exact hij (position_unique hx' (hparent ▸ hy'))

/-- A tree has no finding exactly when no two siblings in it share a path. -/
theorem checkNode_eq_nil_iff_siblings (node : RawNode) : ∀ (basePath : String) (place : List Nat),
    place ≠ [] → (checkNode node basePath = [] ↔ ∀ x y, PlacedIn node basePath place x →
      PlacedIn node basePath place y → x.Siblings y → x.path ≠ y.path) := by
  induction node using RawNode.induction with
  | step node ih =>
    intro basePath place hplace
    rw [checkNode_eq_nil, namedChildren_fst, nodup_filterMap_iff]
    constructor
    · intro ⟨hscope, hbelow⟩ x y hx hy hsiblings
      cases hx with
      | here =>
        obtain ⟨hne, hparent, -⟩ := hsiblings
        have hlength := congrArg List.length hparent
        have hstarts := hy.isPrefix
        have hle := hstarts.length_le
        have hpos := List.length_pos_iff.mpr hplace
        rw [List.length_dropLast, List.length_dropLast] at hlength
        dsimp only at hlength hne
        exact absurd (hstarts.eq_of_length (by omega)) hne
      | @inside _ first _ _ _ i hfirst hfirstTag hx =>
        cases hy with
        | here =>
          obtain ⟨-, hparent, -⟩ := hsiblings
          have hlength := congrArg List.length hparent
          have hle := hx.isPrefix.length_le
          have hpos := List.length_pos_iff.mpr hplace
          rw [List.length_dropLast, List.length_dropLast] at hlength
          rw [List.length_append, List.length_singleton] at hle
          dsimp only at hlength
          omega
        | @inside _ second _ _ _ j hsecond hsecondTag hy =>
          by_cases hij : i = j
          · subst hij
            rw [hfirst] at hsecond
            obtain rfl := Option.some.inj hsecond
            have hmem := List.mem_of_getElem? hfirst
            exact (ih _ hmem _ _ (by simp)).mp (hbelow _ hmem hfirstTag) x y hx hy hsiblings
          · obtain ⟨hxlength, hylength⟩ := hx.siblings_of_ne hij hy hsiblings
            obtain ⟨name, hname, rfl⟩ := hx.of_length hxlength
            obtain ⟨other, hother, rfl⟩ := hy.of_length hylength
            intro hpath
            obtain rfl := path_inj hpath
            exact hij (hscope i j first second name hfirst hsecond
              (childName_eq_some.mpr ⟨hfirstTag, hname⟩)
              (childName_eq_some.mpr ⟨hsecondTag, hother⟩))
    · intro h
      constructor
      · intro i j first second name hfirst hsecond hfirstName hsecondName
        obtain ⟨hfirstTag, hname⟩ := childName_eq_some.mp hfirstName
        obtain ⟨hsecondTag, hother⟩ := childName_eq_some.mp hsecondName
        by_contra hij
        refine h _ _ (.inside i hfirst hfirstTag (.here hname))
          (.inside j hsecond hsecondTag (.here hother)) ⟨?_, ?_, ?_⟩ rfl
        · simpa using hij
        · simp
        · have := List.length_pos_iff.mpr hplace
          simp only [List.length_append, List.length_singleton]
          omega
      · intro child hchild htag
        obtain ⟨i, hi⟩ := List.mem_iff_getElem?.mp hchild
        exact (ih child hchild _ _ (by simp)).mpr fun x y hx hy =>
          h x y (.inside i hi htag hx) (.inside i hi htag hy)

/-! ## The check of a project -/

section
variable {D : Type} [Double D]

/-- A named node of the project, with its file as the first part of its place. -/
def Placed (project : ParsedProject D) (x : PlacedNode) : Prop :=
  ∃ (file : Nat) (root : RawNode), (documentRoots project)[file]? = some root ∧
    PlacedIn root "" [file] x

/-- Two children of one parent have one path. -/
def SiblingsCollide (project : ParsedProject D) : Prop :=
  ∃ x y, Placed project x ∧ Placed project y ∧ x.Siblings y ∧ x.path = y.path

/-- Nodes that share a path without being siblings are packages. -/
def OnlyPackagesMeet (project : ParsedProject D) : Prop :=
  ∀ x y, Placed project x → Placed project y → x.place ≠ y.place → ¬ x.Siblings y →
    x.path = y.path → x.BothPackages y

/-- What the path index relies on: a project without findings has no key that
belongs to two nodes, packages apart. -/
def CollisionsReported (project : ParsedProject D) : Prop :=
  validateUniqueness project = ⟨[]⟩ → ∀ path ∈ buildReferencePathIndex project, ∀ x y,
    Placed project x → Placed project y → x.path = path → y.path = path → x.place ≠ y.place →
    x.BothPackages y

variable {project : ParsedProject D}

theorem PathIn.exists_place {target : RawNode} {path : String}
    (h : PathIn node basePath target path) :
    ∀ place, ∃ x, PlacedIn node basePath place x ∧ x.path = path ∧ x.node = target := by
  induction h with
  | here hname => exact fun place => ⟨_, .here hname, rfl, rfl⟩
  | inside hchild htag _ ih =>
    intro place
    obtain ⟨i, hi⟩ := List.mem_iff_getElem?.mp hchild
    obtain ⟨x, hx, hpath⟩ := ih (place ++ [i])
    exact ⟨x, .inside i hi htag hx, hpath⟩

theorem PlacedIn.pathIn (h : PlacedIn node basePath place x) :
    PathIn node basePath x.node x.path := by
  induction h with
  | here hname => exact .here hname
  | inside i hchild htag _ ih => exact .inside (List.mem_of_getElem? hchild) htag ih

/-- The keys of the index are the paths of the placed nodes. -/
theorem mem_buildReferencePathIndex {path : String} :
    path ∈ buildReferencePathIndex project ↔ ∃ x, Placed project x ∧ x.path = path := by
  rw [buildReferencePathIndex_eq, mem_ofFirst]
  constructor
  · intro hpath
    obtain ⟨⟨path, target⟩, hentry, rfl⟩ := List.mem_map.mp hpath
    obtain ⟨root, hroot, hpathIn⟩ := mem_namedNodes.mp hentry
    obtain ⟨file, hfile⟩ := List.mem_iff_getElem?.mp hroot
    obtain ⟨x, hx, hxpath, -⟩ := hpathIn.exists_place [file]
    exact ⟨x, ⟨file, root, hfile, hx⟩, hxpath⟩
  · rintro ⟨x, ⟨file, root, hfile, hx⟩, rfl⟩
    have hentry := mem_namedNodes.mpr ⟨root, List.mem_of_getElem? hfile, hx.pathIn⟩
    exact List.mem_map.mpr ⟨_, hentry, rfl⟩

/-- A project has no finding exactly when every document has none. -/
theorem validateUniqueness_eq_nil : validateUniqueness project = ⟨[]⟩ ↔
    ∀ root ∈ documentRoots project, checkNode root "" = [] := by
  simp only [validateUniqueness, ValidationResult.mk.injEq, List.flatMap_eq_nil_iff, documentRoots,
    List.mem_filterMap]
  constructor
  · intro h root ⟨file, hfile, hroot⟩
    simpa [hroot] using h file hfile
  · intro h file hfile
    cases hroot : file.rawDocument with
    | none => rfl
    | some root => exact h root ⟨file, hfile, hroot⟩

/-- A place starts with its file. -/
theorem PlacedIn.head?_place {file : Nat} (h : PlacedIn node basePath [file] x) :
    x.place.head? = some file := by
  obtain ⟨rest, hrest⟩ := h.isPrefix
  rw [← hrest]
  rfl

/-- Siblings stand in one file. -/
theorem PlacedNode.Siblings.head?_eq (h : x.Siblings y) : x.place.head? = y.place.head? := by
  obtain ⟨-, hparent, hlength⟩ := h
  have hylength : 1 < y.place.length := by
    have := congrArg List.length hparent
    rw [List.length_dropLast, List.length_dropLast] at this
    omega
  have hhead := congrArg List.head? hparent
  rwa [List.head?_dropLast, List.head?_dropLast, if_pos hlength, if_pos hylength] at hhead

/-- The findings of a project are about siblings that share a path. -/
theorem validateUniqueness_eq_nil_iff_siblings :
    validateUniqueness project = ⟨[]⟩ ↔ ¬ SiblingsCollide project := by
  rw [validateUniqueness_eq_nil]
  constructor
  · rintro h ⟨x, y, ⟨file, root, hfile, hx⟩, ⟨other, root', hother, hy⟩, hsiblings, hpath⟩
    have hhead := hsiblings.head?_eq
    rw [hx.head?_place, hy.head?_place] at hhead
    obtain rfl := Option.some.inj hhead
    rw [hfile] at hother
    obtain rfl := Option.some.inj hother
    exact (checkNode_eq_nil_iff_siblings root "" [file] (by simp)).mp
      (h root (List.mem_of_getElem? hfile)) x y hx hy hsiblings hpath
  · intro h root hroot
    obtain ⟨file, hfile⟩ := List.mem_iff_getElem?.mp hroot
    refine (checkNode_eq_nil_iff_siblings root "" [file] (by simp)).mpr ?_
    intro x y hx hy hsiblings hpath
    exact h ⟨x, y, ⟨file, root, hfile, hx⟩, ⟨file, root, hfile, hy⟩, hsiblings, hpath⟩

/-- **Collisions are reported exactly when siblings collide, or no two nodes of
different parents do, packages apart.** -/
theorem collisions_reported_iff :
    CollisionsReported project ↔ SiblingsCollide project ∨ OnlyPackagesMeet project := by
  rw [CollisionsReported, validateUniqueness_eq_nil_iff_siblings]
  constructor
  · intro h
    by_cases hcollide : SiblingsCollide project
    · exact .inl hcollide
    · refine .inr fun x y hx hy hne _ hpath => ?_
      exact h hcollide y.path (mem_buildReferencePathIndex.mpr ⟨y, hy, rfl⟩) x y hx hy hpath rfl hne
  · intro h hcollide path _ x y hx hy hxpath hypath hne
    have hmeet := h.resolve_left hcollide
    have hpath := hxpath.trans hypath.symm
    exact hmeet x y hx hy hne (fun hsiblings => hcollide ⟨x, y, hx, hy, hsiblings, hpath⟩) hpath

end

/-- An element `Brake` of the tag, and a package `Bus` around it. -/
def brakeElement (tag : String) : RawNode :=
  { tagName := tag, children := [{ tagName := "SHORT-NAME", text := "Brake" }] }

def busPackage (tag : String) : RawNode :=
  { tagName := "AR-PACKAGE", children := [
      { tagName := "SHORT-NAME", text := "Bus" },
      { tagName := "ELEMENTS", children := [brakeElement tag] }] }

theorem brakeElement_placed {tag : String} (htag : tag ≠ "SHORT-NAME") (file : Nat) :
    PlacedIn (busPackage tag) "" [file] ⟨[file, 1, 0], "/Bus/Brake", brakeElement tag⟩ := by
  have hbus : scopeName (busPackage tag) = some "Bus" := by
    show scopeName (busPackage "") = _
    decide
  have hbrake : scopeName (brakeElement tag) = some "Brake" := by
    show scopeName (brakeElement "") = _
    decide
  have helements : "ELEMENTS" ≠ "SHORT-NAME" := by decide
  have hpath : scopePath (busPackage tag) "" = "/Bus" := by rw [scopePath, hbus]; decide
  have hunnamed : scopePath { tagName := "ELEMENTS", children := [brakeElement tag] } "/Bus" =
      "/Bus" := by
    simp [scopePath, scopeName, findShortNameChild, findChild, brakeElement, htag]
  refine .inside 1 rfl helements (.inside 0 rfl htag ?_)
  rw [hpath, hunnamed]
  exact .here hbrake

/-- Two files with a package `Bus`: a frame `Brake` in one, an ECU of the name in
the other. -/
def projectOfCollision : ParsedProject WholeDouble :=
  { files := [{ rawDocument := some (busPackage "CAN-FRAME") },
      { rawDocument := some (busPackage "ECU-INSTANCE") }] }

/-- The path `/Bus/Brake` belongs to both, without a finding. -/
theorem collision_not_reported : ¬ CollisionsReported projectOfCollision := by
  intro h
  have hframe : Placed projectOfCollision ⟨[0, 1, 0], "/Bus/Brake", brakeElement "CAN-FRAME"⟩ :=
    ⟨0, _, rfl, brakeElement_placed (by decide) 0⟩
  have hecu : Placed projectOfCollision ⟨[1, 1, 0], "/Bus/Brake", brakeElement "ECU-INSTANCE"⟩ :=
    ⟨1, _, rfl, brakeElement_placed (by decide) 1⟩
  have hpath := mem_buildReferencePathIndex.mpr ⟨_, hframe, rfl⟩
  have hclean : validateUniqueness projectOfCollision = ⟨[]⟩ := by rfl
  obtain ⟨htag, -⟩ := h hclean _ hpath _ _ hframe hecu rfl rfl (by decide)
  exact absurd htag (by decide)

end ParseX
