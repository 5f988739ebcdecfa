import CollectionTypes.Dictionary
import CollectionTypes.Files.System
import CollectionTypes.Text.Bytes

/-!
# File trees

A tree of directories and files. A place in it is the list of names from its root, which is the
working directory and always there. Every other place that holds something lies in a directory; that
is part of the type.

The tree ends at the working directory. The root is above itself, so a step back (`..`) from there
leads nowhere else. And there is no other directory from which a path name could be absolute: one
that begins with a slash is followed from the root as well, so that `/a` and `a` lead to the same
place.
-/

namespace CollectionTypes

inductive FileContent where
  | text (text : Text)
  /-- Bytes that are no UTF-8 text. -/
  | bytes (bytes : List UInt8)
deriving DecidableEq

namespace FileContent

/-- The content that these bytes are. -/
def ofBytes (bytes : List UInt8) : FileContent :=
  match String.fromUTF8? (ByteArray.mk bytes.toArray) with
  | some s => text s.toList
  | none => .bytes bytes

def size : FileContent → Nat
  | text t => t.byteLength
  | bytes b => b.length

end FileContent

inductive FileNode where
  | directory
  | file (content : FileContent)
deriving DecidableEq

/-- The names from the root of a tree. -/
abbrev Place := List Text

/-- What the places of a tree hold. The root is a directory without being listed. -/
structure FileTree where
  nodes : Dictionary Place FileNode
  directory_of_mem : ∀ place name, place ++ [name] ∈ nodes.keys →
    place = [] ∨ nodes.get? place = some .directory

namespace FileTree

def empty : FileTree where
  nodes := ∅
  directory_of_mem := by
    intro place name h
    exact absurd h List.not_mem_nil

def node? (t : FileTree) (place : Place) : Option FileNode :=
  if place = [] then some .directory else t.nodes.get? place

theorem node?_root (t : FileTree) : t.node? [] = some .directory := rfl

theorem node?_append (t : FileTree) (place : Place) (name : Text) :
    t.node? (place ++ [name]) = t.nodes.get? (place ++ [name]) := by
  simp [node?]

theorem node?_eq_directory_iff (t : FileTree) (place : Place) :
    t.node? place = some .directory ↔ place = [] ∨ t.nodes.get? place = some .directory := by
  by_cases h : place = [] <;> simp [node?, h]

theorem node?_of_mem (t : FileTree) {place : Place} {name : Text}
    (h : place ++ [name] ∈ t.nodes.keys) : t.node? place = some .directory :=
  (t.node?_eq_directory_iff place).2 (t.directory_of_mem place name h)

/-- What holds something lies in a directory. -/
theorem node?_parent (t : FileTree) {place : Place} {name : Text} {node : FileNode}
    (h : t.node? (place ++ [name]) = some node) : t.node? place = some .directory := by
  rw [node?_append] at h
  exact t.node?_of_mem (Dictionary.mem_keys_of_get? h)

/-- A place that is known to be a directory. -/
def Directory (t : FileTree) := { place : Place // t.node? place = some .directory }

namespace Directory

variable {t : FileTree}

def root : t.Directory := ⟨[], t.node?_root⟩

/-- The directory above; the root is above itself. -/
def above (d : t.Directory) : t.Directory where
  val := d.val.dropLast
  property := by
    rcases List.eq_nil_or_concat d.val with h | ⟨place, name, h⟩
    · rw [h]
      rfl
    · rw [List.concat_eq_append] at h
      have hd := d.property
      rw [h] at hd
      rw [h, List.dropLast_concat]
      exact t.node?_parent hd

end Directory

/-- The tree in which `name` holds `node`, which it may do unless it is a directory already. -/
def put (t : FileTree) (d : t.Directory) (name : Text) (node : FileNode)
    (h : t.node? (d.val ++ [name]) ≠ some .directory) : FileTree where
  nodes := t.nodes.insert (d.val ++ [name]) node
  directory_of_mem := by
    intro place name' hm
    rw [Dictionary.get?_insert]
    rcases Dictionary.mem_keys_insert.1 hm with he | hm
    · obtain ⟨rfl, _⟩ := List.append_inj' he rfl
      rw [if_neg (by simp)]
      exact (t.node?_eq_directory_iff d.val).1 d.property
    · split
      next he =>
        subst he
        exact absurd (t.node?_of_mem hm) h
      next => exact t.directory_of_mem place name' hm

theorem node?_put (t : FileTree) (d : t.Directory) (name : Text) (node : FileNode)
    (h : t.node? (d.val ++ [name]) ≠ some .directory) (place : Place) :
    (t.put d name node h).node? place =
      if place = d.val ++ [name] then some node else t.node? place := by
  by_cases hp : place = d.val ++ [name]
  · subst hp
    rw [node?_append, if_pos rfl]
    exact (Dictionary.get?_insert _ _ _ _).trans (if_pos rfl)
  · by_cases hr : place = []
    · simp [node?, hr]
    · simp only [node?, if_neg hr, if_neg hp]
      exact (Dictionary.get?_insert _ _ _ _).trans (if_neg hp)

/-- The tree without a place and all that lies below it. -/
def remove (t : FileTree) (place : Place) : FileTree where
  nodes := t.nodes.filter fun p => !place.isPrefixOf p
  directory_of_mem := by
    intro p name h
    obtain ⟨hm, hp⟩ := Dictionary.mem_keys_filter.1 h
    rcases t.directory_of_mem p name hm with hr | hd
    · exact Or.inl hr
    · right
      rw [Dictionary.get?_filter_of_pos]
      · exact hd
      · simp only [Bool.not_eq_true', ← Bool.not_eq_true, List.isPrefixOf_iff_prefix] at hp ⊢
        exact fun hq => hp (hq.trans (List.prefix_append p [name]))

/-! ### Path names -/

/-- A path name, read as a way through a tree: names and steps back, and then the last name. A path
name that ends in a point or a step back has no last name. -/
structure Route where
  steps : List Text
  name : Option Text
  endsWithSlash : Bool
deriving DecidableEq, Repr

/-- The route of a path name that is not empty. -/
def Route.ofText (path : Text) : Route :=
  let endsWithSlash := path.getLast? = some '/'
  match (Pathname.pieces path).reverse.dropWhile List.isEmpty with
  | [] => ⟨[], none, endsWithSlash⟩
  | last :: before =>
    let steps := before.reverse.filter fun p => !Pathname.isIdle p
    if last = Pathname.here then ⟨steps, none, endsWithSlash⟩
    else if last = Pathname.above then ⟨steps ++ [last], none, endsWithSlash⟩
    else ⟨steps, some last, endsWithSlash⟩

/-- Follows names and steps back. Each name must be that of a directory. -/
def walk (t : FileTree) (d : t.Directory) : List Text → Except FileError t.Directory
  | [] => .ok d
  | step :: steps =>
    if step = Pathname.above then t.walk d.above steps
    else
      match h : t.node? (d.val ++ [step]) with
      | none => .error .notFound
      | some (.file _) => .error .notDirectory
      | some .directory => t.walk ⟨d.val ++ [step], h⟩ steps

/-- What a path name leads to: a directory, or a name in a directory that may hold nothing yet. -/
inductive Spot (t : FileTree) where
  | directory (directory : t.Directory)
  | entry (directory : t.Directory) (name : Text) (endsWithSlash : Bool)

def spot (t : FileTree) (path : Text) : Except FileError t.Spot :=
  if path.isEmpty then .error .notFound
  else
    let route := Route.ofText path
    match t.walk .root route.steps with
    | .error e => .error e
    | .ok d =>
      match route.name with
      | none => .ok (.directory d)
      | some name => .ok (.entry d name route.endsWithSlash)

/-! ### Operations -/

/-- What a path name holds. A slash may follow only the name of a directory. -/
def find (t : FileTree) (path : Text) : Except FileError FileNode :=
  match t.spot path with
  | .error e => .error e
  | .ok (.directory _) => .ok .directory
  | .ok (.entry d name endsWithSlash) =>
    match t.node? (d.val ++ [name]) with
    | none => .error .notFound
    | some .directory => .ok .directory
    | some (.file content) => if endsWithSlash then .error .notDirectory else .ok (.file content)

def readText (t : FileTree) (path : Text) : Except FileError Text :=
  match t.find path with
  | .error e => .error e
  | .ok .directory => .error .isDirectory
  | .ok (.file (.bytes _)) => .error .notText
  | .ok (.file (.text text)) => .ok text

def isPresent (t : FileTree) (path : Text) : Bool := (t.find path).isOk

def isDirectory (t : FileTree) (path : Text) : Bool :=
  match t.find path with
  | .ok .directory => true
  | _ => false

def makeDirectory (t : FileTree) (path : Text) : Except FileError FileTree :=
  match t.spot path with
  | .error e => .error e
  | .ok (.directory _) => .error .alreadyExists
  | .ok (.entry d name _) =>
    if h : t.node? (d.val ++ [name]) = none then .ok (t.put d name .directory (by simp [h]))
    else .error .alreadyExists

/-- Gives a file this content. No file has a slash after its name. -/
def write (t : FileTree) (path : Text) (content : FileContent) : Except FileError FileTree :=
  match t.spot path with
  | .error e => .error e
  | .ok (.directory _) => .error .isDirectory
  | .ok (.entry d name endsWithSlash) =>
    if h : endsWithSlash = true ∨ t.node? (d.val ++ [name]) = some .directory then
      .error .isDirectory
    else .ok (t.put d name (.file content) (fun hd => h (Or.inr hd)))

/-- Runs an operation that changes the tree only if it succeeds. -/
def change (operation : FileTree → Except FileError FileTree) :
    StateM FileTree (Except FileError Unit) :=
  fun t =>
    match operation t with
    | .ok t' => (.ok (), t')
    | .error e => (.error e, t)

instance : FileSystem (StateM FileTree) where
  readText path := return (← get).readText path
  isPresent path := return (← get).isPresent path
  isDirectory path := return (← get).isDirectory path
  makeDirectory path := change (makeDirectory · path)
  writeText path text := change (write · path (.text text))

end FileTree
end CollectionTypes
