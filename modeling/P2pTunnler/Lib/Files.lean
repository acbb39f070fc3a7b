import Mathlib.Data.List.Basic

/-!
# Files, links and open handles

A path leads to a place, and a file stands at a place: two spellings of a
path, paths through a linked directory and hard links lead to one place.
Opening may create or truncate a file at once; a handle writes at its own
offset, over whatever the file holds by then.
-/

universe u

namespace Files

/-- What stands at a place; of a symbolic link, the place that its target leads to. -/
inductive Node (π : Type u)
  | file (contents : List UInt8)
  | symlink (target : π)
  deriving DecidableEq

structure FileSystem (π : Type u) where
  -- where a path leads; a symbolic link at its end is not followed
  resolve : String → π
  nodes : π → Option (Node π)

namespace FileSystem

variable {π : Type u} (fs : FileSystem π)

def look (path : String) : Option (Node π) := fs.nodes (fs.resolve path)

/-- The two paths lead to one place. -/
def SameFile (p q : String) : Prop := fs.resolve p = fs.resolve q

instance [DecidableEq π] (p q : String) : Decidable (fs.SameFile p q) :=
  inferInstanceAs (Decidable (fs.resolve p = fs.resolve q))

theorem SameFile.symm {fs : FileSystem π} {p q : String} (h : fs.SameFile p q) : fs.SameFile q p := Eq.symm h

theorem SameFile.look {fs : FileSystem π} {p q : String} (h : fs.SameFile p q) : fs.look p = fs.look q :=
  congrArg fs.nodes h

end FileSystem

variable {π : Type u} [DecidableEq π]

def set (fs : FileSystem π) (place : π) (node : Node π) : FileSystem π :=
  { fs with nodes := fun x => if x = place then some node else fs.nodes x }

@[simp] theorem set_resolve (fs : FileSystem π) (place : π) (node : Node π) :
    (set fs place node).resolve = fs.resolve := rfl

@[simp] theorem set_same (fs : FileSystem π) (place : π) (node : Node π) :
    (set fs place node).nodes place = some node := by
  simp [set]

@[simp] theorem set_other {fs : FileSystem π} {place x : π} (h : x ≠ place) (node : Node π) :
    (set fs place node).nodes x = fs.nodes x := by
  simp [set, h]

theorem set_set (fs : FileSystem π) (place : π) (a b : Node π) : set (set fs place a) place b = set fs place b := by
  have hnodes : (set (set fs place a) place b).nodes = (set fs place b).nodes := by
    funext x
    by_cases h : x = place <;> simp [set, h]
  exact congrArg (FileSystem.mk fs.resolve) hnodes

theorem set_eq_self {fs : FileSystem π} {place : π} {node : Node π} :
    set fs place node = fs ↔ fs.nodes place = some node := by
  constructor
  · intro h
    rw [← h, set_same]
  · intro h
    have hnodes : (set fs place node).nodes = fs.nodes := by
      funext x
      by_cases hx : x = place
      · rw [hx, set_same, h]
      · rw [set_other hx]
    exact congrArg (FileSystem.mk fs.resolve) hnodes

/-! ## Opening -/

structure OpenOptions where
  create : Bool
  truncate : Bool
  createNew : Bool
  noFollow : Bool

structure Handle (π : Type u) where
  place : π
  offset : Nat
  deriving DecidableEq

-- the number of links that may be followed
def maxLinks : Nat := 40

def openFrom (o : OpenOptions) (fs : FileSystem π) : Nat → π → Option (Handle π) × FileSystem π
  | 0, _ => (none, fs)
  | n + 1, place =>
    match fs.nodes place with
    | none => if o.create || o.createNew then (some ⟨place, 0⟩, set fs place (.file [])) else (none, fs)
    | some (.file _) =>
      if o.createNew then (none, fs) else (some ⟨place, 0⟩, if o.truncate then set fs place (.file []) else fs)
    | some (.symlink target) => if o.createNew || o.noFollow then (none, fs) else openFrom o fs n target

/-- `permitted` is whether the system lets the call through. -/
def openFile (o : OpenOptions) (permitted : Bool) (fs : FileSystem π) (path : String) :
    Option (Handle π) × FileSystem π :=
  if permitted then openFrom o fs (maxLinks + 1) (fs.resolve path) else (none, fs)

/-! ## Writing -/

/-- The contents after `data` is written over them at `offset`. -/
def overwrite (contents : List UInt8) (offset : Nat) (data : List UInt8) : List UInt8 :=
  (contents ++ List.replicate (offset - contents.length) 0).take offset ++ data ++ contents.drop (offset + data.length)

@[simp] theorem overwrite_nil (data : List UInt8) : overwrite [] 0 data = data := by
  simp [overwrite]

theorem overwrite_zero (contents data : List UInt8) :
    overwrite contents 0 data = data ++ contents.drop data.length := by
  simp [overwrite]

def write (fs : FileSystem π) (h : Handle π) (data : List UInt8) : FileSystem π :=
  match fs.nodes h.place with
  | some (.file contents) => set fs h.place (.file (overwrite contents h.offset data))
  | _ => fs

theorem write_file {fs : FileSystem π} {h : Handle π} {contents : List UInt8}
    (hf : fs.nodes h.place = some (.file contents)) (data : List UInt8) :
    write fs h data = set fs h.place (.file (overwrite contents h.offset data)) := by
  rw [write, hf]

theorem write_set (fs : FileSystem π) (place : π) (contents : List UInt8) (offset : Nat) (data : List UInt8) :
    write (set fs place (.file contents)) ⟨place, offset⟩ data =
      set fs place (.file (overwrite contents offset data)) := by
  rw [write_file (set_same fs place _), set_set]

/-! ## Reading -/

section
variable {π : Type u}

def readFrom (fs : FileSystem π) : Nat → π → Option (List UInt8)
  | 0, _ => none
  | n + 1, place =>
    match fs.nodes place with
    | none => none
    | some (.file contents) => some contents
    | some (.symlink target) => readFrom fs n target

def read (fs : FileSystem π) (path : String) : Option (List UInt8) := readFrom fs (maxLinks + 1) (fs.resolve path)

theorem read_file {fs : FileSystem π} {path : String} {contents : List UInt8}
    (h : fs.look path = some (.file contents)) : read fs path = some contents := by
  have hnode : fs.nodes (fs.resolve path) = some (.file contents) := h
  rw [read, readFrom, hnode]

end

end Files
