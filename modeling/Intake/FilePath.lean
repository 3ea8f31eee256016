/-!
# File paths

A path is a root and the components below it. Reading a path drops empty components and single dots and
keeps double ones; two slashes in front are a root of their own, any other number of them is one root.
-/
namespace Intake

/-- A component of a path: a name that is not empty, is no single dot and has no slash in it. -/
def IsComponent (s : String) : Prop := s ≠ "" ∧ s ≠ "." ∧ '/' ∉ s.toList

instance (s : String) : Decidable (IsComponent s) := inferInstanceAs (Decidable (_ ∧ _ ∧ _))

/-- What a path starts from. -/
inductive FilePath.Root where
  | none
  | single
  | double
  deriving DecidableEq, Repr, Inhabited

/-- A file path. -/
structure FilePath where
  root : FilePath.Root
  components : List { s : String // IsComponent s }
  deriving DecidableEq

namespace FilePath

instance : Inhabited FilePath := ⟨⟨.none, []⟩⟩

def pieces : List Char → List (List Char)
  | [] => [[]]
  | c :: rest =>
    if c = '/' then [] :: pieces rest
    else match pieces rest with
      | [] => [[c]]
      | p :: ps => (c :: p) :: ps

def component? (piece : List Char) : Option { s : String // IsComponent s } :=
  if h : IsComponent (String.ofList piece) then some ⟨_, h⟩ else none

/-- The root that the slashes in front of a text stand for. -/
def rootOf (s : List Char) : Root :=
  match (s.takeWhile (· = '/')).length with
  | 0 => .none
  | 2 => .double
  | _ => .single

def ofString (s : String) : FilePath :=
  ⟨rootOf s.toList, (pieces s.toList).filterMap component?⟩

def Root.text : Root → String
  | .none => ""
  | .single => "/"
  | .double => "//"

/-- The text of a path; a path without anything in it is a dot. -/
def text (p : FilePath) : String :=
  if p.root = .none ∧ p.components = [] then "."
  else p.root.text ++ "/".intercalate (p.components.map Subtype.val)

/-- The last component, empty if there is none. -/
def name (p : FilePath) : String := ((p.components.getLast?).map Subtype.val).getD ""

/-- The path as seen from the root directory, which is where the program stands. -/
def absolute (p : FilePath) : FilePath :=
  match p.root with
  | .none => ⟨.single, p.components⟩
  | _ => p

/-- The path continued by what a text names. A text that starts from a root replaces the path. -/
def child (p : FilePath) (s : String) : FilePath :=
  let below := ofString s
  match below.root with
  | .none => ⟨p.root, p.components ++ below.components⟩
  | _ => below

theorem absolute_idem (p : FilePath) : p.absolute.absolute = p.absolute := by
  rcases p with ⟨_ | _ | _, _⟩ <;> rfl

theorem pieces_of_slash_not_mem {s : List Char} (h : '/' ∉ s) : pieces s = [s] := by
  induction s with
  | nil => rfl
  | cons c s ih =>
    have hc : c ≠ '/' := fun e => h (by simp [e])
    simp [pieces, hc, ih fun m => h (List.mem_cons_of_mem _ m)]

theorem child_of_isComponent (p : FilePath) {s : String} (h : IsComponent s) :
    p.child s = ⟨p.root, p.components ++ [⟨s, h⟩]⟩ := by
  have hroot : rootOf s.toList = .none := by
    obtain ⟨-, -, hs⟩ := h
    unfold rootOf
    cases hl : s.toList with
    | nil => rfl
    | cons c cs =>
      have hc : c ≠ '/' := fun e => hs (by simp [hl, e])
      simp [hc]
  have hbelow : ofString s = ⟨.none, [⟨s, h⟩]⟩ := by
    simp [ofString, hroot, pieces_of_slash_not_mem h.2.2, component?, h]
  simp [child, hbelow]

end FilePath

end Intake
