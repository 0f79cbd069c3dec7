/-
Trails: the requests that are being resolved, each inside the one before.

A reference that repeats a request of its own trail would never come to an end,
and is refused. So a trail has no repetitions, and as there are only finitely
many requests, no trail is longer than their number. This is what makes the
resolution of references total for every lookup whatsoever, whether it answers
from a store or invents a new component for each request.
-/
import Pipeline.Component.Basic

set_option autoImplicit false

namespace Pipeline

/-! ## Numbering requests -/

/-- The number of identifiers. -/
def ComponentId.count : Nat := Nat.pow 16 32

/-- The number that digits denote, the first having the least weight. -/
def ComponentId.valueOf : List (Fin 16) → Nat
  | [] => 0
  | digit :: digits => digit + 16 * valueOf digits

theorem ComponentId.valueOf_lt (digits : List (Fin 16)) :
    valueOf digits < Nat.pow 16 digits.length := by
  induction digits with
  | nil => simp [valueOf]
  | cons digit digits ih =>
    have hpow : Nat.pow 16 (digit :: digits).length = Nat.pow 16 digits.length * 16 := rfl
    rw [hpow, valueOf]
    omega

theorem ComponentId.valueOf_injective : ∀ {a b : List (Fin 16)}, a.length = b.length →
    valueOf a = valueOf b → a = b
  | [], [], _, _ => rfl
  | x :: a, y :: b, hlength, hvalue => by
    simp only [valueOf] at hvalue
    have hx := x.isLt
    have hy := y.isLt
    have hhead : x = y := Fin.ext (by omega)
    have htail : a = b :=
      valueOf_injective (by simpa using hlength) (by omega)
    rw [hhead, htail]

/-- The number of an identifier. -/
def ComponentId.number (id : ComponentId) : Nat := valueOf id.digits

theorem ComponentId.number_lt (id : ComponentId) : id.number < count := by
  have := valueOf_lt id.digits
  rwa [id.length_digits] at this

theorem ComponentId.number_injective {a b : ComponentId} (h : a.number = b.number) : a = b := by
  have hdigits : a.digits = b.digits :=
    valueOf_injective (a.length_digits.trans b.length_digits.symm) h
  cases a; cases b; simp_all

namespace Request

/-- The number of versions. -/
def versionCount : Nat := UInt64.size

/-- The number of requests: for each identifier its latest version and each version. -/
def count : Nat := ComponentId.count * (versionCount + 1)

/-- The number of a request. -/
def number : Request → Nat
  | .latest id => id.number
  | .pinned id version => id.number + ComponentId.count * (version.toNat + 1)

theorem number_lt (request : Request) : request.number < count := by
  cases request with
  | latest id =>
    exact Nat.lt_of_lt_of_le id.number_lt (Nat.le_mul_of_pos_right _ (Nat.succ_pos versionCount))
  | pinned id version =>
    have hversion : version.toNat + 1 ≤ versionCount := version.toNat_lt
    calc id.number + ComponentId.count * (version.toNat + 1)
      _ < ComponentId.count + ComponentId.count * (version.toNat + 1) :=
        Nat.add_lt_add_right id.number_lt _
      _ = ComponentId.count * (version.toNat + 1 + 1) := by rw [Nat.add_comm, ← Nat.mul_succ]
      _ ≤ ComponentId.count * (versionCount + 1) :=
        Nat.mul_le_mul_left _ (Nat.succ_le_succ hversion)

/-- The number of a request gives away its identifier. -/
theorem number_mod (request : Request) : request.number % ComponentId.count = request.id.number := by
  have hid := request.id.number_lt
  cases request with
  | latest id => exact Nat.mod_eq_of_lt hid
  | pinned id version => exact (Nat.add_mul_mod_self_left _ _ _).trans (Nat.mod_eq_of_lt hid)

theorem number_injective {a b : Request} (h : a.number = b.number) : a = b := by
  have hid : a.id = b.id := ComponentId.number_injective (by rw [← number_mod, ← number_mod, h])
  have hpos : 0 < ComponentId.count := Nat.pow_pos (by decide)
  cases a with
  | latest a =>
    cases b with
    | latest b => exact congrArg _ hid
    | pinned b v =>
      have hlt : a.number < ComponentId.count := a.number_lt
      have : ComponentId.count ≤ ComponentId.count * (v.toNat + 1) :=
        Nat.le_mul_of_pos_right _ (Nat.succ_pos _)
      simp only [number] at h
      omega
  | pinned a u =>
    cases b with
    | latest b =>
      have hlt : b.number < ComponentId.count := b.number_lt
      have : ComponentId.count ≤ ComponentId.count * (u.toNat + 1) :=
        Nat.le_mul_of_pos_right _ (Nat.succ_pos _)
      simp only [number] at h
      omega
    | pinned b v =>
      obtain rfl : a = b := hid
      have hproduct : ComponentId.count * (u.toNat + 1) = ComponentId.count * (v.toNat + 1) :=
        Nat.add_left_cancel h
      have := Nat.eq_of_mul_eq_mul_left hpos hproduct
      obtain rfl : u = v := UInt64.toNat_inj.1 (by omega)
      rfl

end Request

/-! ## Lists without repetitions -/

/-- A list of distinct numbers below `n` has at most `n` of them. -/
theorem length_le_of_nodup_lt {n : Nat} : ∀ {numbers : List Nat}, numbers.Nodup →
    (∀ i ∈ numbers, i < n) → numbers.length ≤ n := by
  induction n with
  | zero =>
    intro numbers _ hlt
    cases numbers with
    | nil => simp
    | cons i _ => exact absurd (hlt i List.mem_cons_self) (Nat.not_lt_zero i)
  | succ n ih =>
    intro numbers hnodup hlt
    -- Without the greatest number the list stays below `n`, where the bound holds already.
    have hrest : (numbers.erase n).length ≤ n := by
      refine ih (hnodup.erase n) fun i hi => ?_
      have hne := (hnodup.mem_erase_iff.1 hi).1
      have := hlt i (List.mem_of_mem_erase hi)
      omega
    have := List.length_erase_le (a := n) (l := numbers)
    by_cases hmem : n ∈ numbers
    · have := List.length_erase_of_mem hmem
      omega
    · rw [List.erase_of_not_mem hmem] at hrest
      omega

/-! ## Trails -/

/-- Requests that are being resolved, the innermost first. -/
structure Trail where
  requests : List Request
  distinct : requests.Nodup

namespace Trail

/-- Nothing is being resolved. -/
def empty : Trail := ⟨[], List.nodup_nil⟩

/-- One more request is being resolved. -/
def push (trail : Trail) (request : Request) (h : request ∉ trail.requests) : Trail :=
  ⟨request :: trail.requests, List.nodup_cons.2 ⟨h, trail.distinct⟩⟩

/-- The number of requests that are being resolved. -/
def length (trail : Trail) : Nat := trail.requests.length

@[simp] theorem length_push (trail : Trail) (request : Request)
    (h : request ∉ trail.requests) : (trail.push request h).length = trail.length + 1 := rfl

/-- A trail is no longer than there are requests. -/
theorem length_le (trail : Trail) : trail.length ≤ Request.count := by
  have hnodup : (trail.requests.map Request.number).Nodup := by
    refine List.Pairwise.map _ (fun a b hne heq => ?_) trail.distinct
    exact hne (Request.number_injective heq)
  have := length_le_of_nodup_lt hnodup fun i hi => by
    obtain ⟨request, _, rfl⟩ := List.mem_map.1 hi
    exact request.number_lt
  simpa [length] using this

/-- The number of requests that are not being resolved, at most. -/
def room (trail : Trail) : Nat := Request.count - trail.length

/-- Resolving one more request leaves less room. -/
theorem room_push_lt (trail : Trail) (request : Request) (h : request ∉ trail.requests) :
    (trail.push request h).room < trail.room := by
  have := (trail.push request h).length_le
  rw [length_push] at this
  unfold room
  rw [length_push]
  omega

end Trail

end Pipeline
