set_option autoImplicit false

namespace MarkSweep

def total {α : Type} (f : α → Nat) : List α → Nat
  | [] => 0
  | a :: as => f a + total f as

@[simp] theorem total_nil {α : Type} (f : α → Nat) : total f [] = 0 := rfl

@[simp] theorem total_cons {α : Type} (f : α → Nat) (a : α) (as : List α) :
    total f (a :: as) = f a + total f as := rfl

theorem total_append {α : Type} (f : α → Nat) (as bs : List α) :
    total f (as ++ bs) = total f as + total f bs := by
  induction as with
  | nil => simp
  | cons a as ih => rw [List.cons_append, total_cons, total_cons, ih, Nat.add_assoc]

theorem total_map {α β : Type} (f : β → Nat) (g : α → β) (as : List α) :
    total f (as.map g) = total (fun a => f (g a)) as := by
  induction as with
  | nil => rfl
  | cons a as ih => rw [List.map_cons, total_cons, total_cons, ih]

theorem total_const {α : Type} (n : Nat) (l : List α) : total (fun _ => n) l = l.length * n := by
  induction l with
  | nil => simp
  | cons a l ih => rw [total_cons, ih, List.length_cons, Nat.add_mul, Nat.one_mul, Nat.add_comm]

theorem total_flatMap {α β : Type} (f : β → Nat) (g : α → List β) (l : List α) :
    total f (l.flatMap g) = total (fun a => total f (g a)) l := by
  induction l with
  | nil => rfl
  | cons a l ih => rw [List.flatMap_cons, total_append, ih, total_cons]

theorem total_filter_add {α : Type} (f : α → Nat) (p q : α → Bool) (l : List α)
    (other : ∀ a ∈ l, q a = !p a) : total f (l.filter p) + total f (l.filter q) = total f l := by
  induction l with
  | nil => rfl
  | cons a l ih =>
    have rest := ih fun b hb => other b (List.mem_cons_of_mem a hb)
    have head := other a List.mem_cons_self
    cases hp : p a <;> simp [hp, head] <;> omega

theorem total_congr {α : Type} {f g : α → Nat} {as : List α} (h : ∀ a ∈ as, f a = g a) :
    total f as = total g as := by
  induction as with
  | nil => rfl
  | cons a as ih =>
    rw [total_cons, total_cons, h a List.mem_cons_self,
      ih fun b hb => h b (List.mem_cons_of_mem a hb)]

theorem total_perm {α : Type} (f : α → Nat) {as bs : List α} (same : as.Perm bs) :
    total f as = total f bs := by
  induction same with
  | nil => rfl
  | cons a _ ih => rw [total_cons, total_cons, ih]
  | swap a b _ => simp only [total_cons]; omega
  | trans _ _ ih ih' => exact ih.trans ih'

theorem total_add {α : Type} (f g : α → Nat) (as : List α) :
    total (fun a => f a + g a) as = total f as + total g as := by
  induction as with
  | nil => rfl
  | cons a as ih =>
    simp only [total_cons, ih]
    omega

theorem total_filter_of_zero {α : Type} {f : α → Nat} {p : α → Bool} (as : List α)
    (zero : ∀ a, p a = false → f a = 0) : total f (as.filter p) = total f as := by
  induction as with
  | nil => rfl
  | cons a as ih =>
    cases kept : p a with
    | true => rw [List.filter_cons_of_pos kept, total_cons, total_cons, ih]
    | false =>
      rw [List.filter_cons_of_neg (by simp [kept]), total_cons, zero a kept, Nat.zero_add, ih]

theorem total_set {α : Type} (f : α → Nat) {l : List α} {i : Nat} {a : α} (found : l[i]? = some a)
    (b : α) : total f (l.set i b) + f a = total f l + f b := by
  induction l generalizing i with
  | nil => simp at found
  | cons c l ih =>
    cases i with
    | zero =>
      obtain rfl : c = a := by simpa using found
      rw [List.set_cons_zero, total_cons, total_cons]
      omega
    | succ i =>
      have rest := ih (i := i) (by simpa using found)
      rw [List.set_cons_succ, total_cons, total_cons]
      omega

end MarkSweep
