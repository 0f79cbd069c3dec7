/-
Errors with the place where they arose.

Work on a tree of components fails somewhere inside it. The cause is one value;
on the way out each enclosing place is put in front of the path, so the path
reads from the outside in.
-/

set_option autoImplicit false

namespace Pipeline

/-- A cause, and the places around it from the outermost inwards. -/
structure Located (ι ε : Type) where
  path : List ι
  cause : ε
  deriving DecidableEq

namespace Located

variable {ι ε α : Type}

/-- A cause at the place where the work began. -/
def here (cause : ε) : Located ι ε := ⟨[], cause⟩

/-- The same cause, seen from one place further out. -/
def within (place : ι) (error : Located ι ε) : Located ι ε :=
  { error with path := place :: error.path }

/-- The text of an error: each place, and then the cause. -/
def message (place : ι → String) (cause : ε → String) (error : Located ι ε) : String :=
  ": ".intercalate (error.path.map place ++ [cause error.cause])

end Located

variable {ι ε α : Type}

/-- Puts a place around whatever goes wrong in some work. -/
def inside (place : ι) (work : Except (Located ι ε) α) : Except (Located ι ε) α :=
  work.mapError (Located.within place)

/-- Work whose failures have no place yet. -/
def located (work : Except ε α) : Except (Located ι ε) α :=
  work.mapError Located.here

@[simp] theorem inside_ok (place : ι) (value : α) :
    inside place (.ok value : Except (Located ι ε) α) = .ok value := rfl

@[simp] theorem inside_error (place : ι) (error : Located ι ε) :
    inside place (.error error : Except (Located ι ε) α) = .error (error.within place) := rfl

@[simp] theorem located_ok (value : α) :
    located (.ok value : Except ε α) = (.ok value : Except (Located ι ε) α) := rfl

@[simp] theorem located_error (cause : ε) :
    located (.error cause : Except ε α) = (.error (.here cause) : Except (Located ι ε) α) := rfl

end Pipeline
