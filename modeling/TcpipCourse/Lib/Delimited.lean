import TcpipCourse.Lib.Format

/-!
# Formatted text that can be read back

* `joined` : a value, and then names with values behind them; `joined_inj` : where every name starts with a character
  that no value has, the text determines the values;
* `digitsValue` : the number that digits stand for; `unsigned_inj`, `hex_inj` : a conversion determines its number;
* `fieldsOf` : the names and the values of a format string that alternates between them.
-/

namespace TcpipCourse.Lib

variable {α : Type}

/-! ## Values and names -/

/-- A value up to a character that stops it. -/
theorem append_inj_of_stop {stop : α → Prop} {v v' rest rest' : List α} (hv : ∀ b ∈ v, ¬ stop b)
    (hv' : ∀ b ∈ v', ¬ stop b) (hrest : ∀ b ∈ rest.head?, stop b) (hrest' : ∀ b ∈ rest'.head?, stop b)
    (h : v ++ rest = v' ++ rest') : v = v' ∧ rest = rest' := by
  induction v generalizing v' with
  | nil =>
    cases v' with
    | nil => exact ⟨rfl, h⟩
    | cons b v' =>
      rw [List.nil_append] at h
      refine absurd (hrest b ?_) (hv' b List.mem_cons_self)
      rw [h]
      rfl
  | cons b v ih =>
    cases v' with
    | nil =>
      rw [List.nil_append] at h
      refine absurd (hrest' b ?_) (hv b List.mem_cons_self)
      rw [← h]
      rfl
    | cons b' v' =>
      obtain ⟨rfl, htail⟩ := List.cons.inj h
      obtain ⟨rfl, hsame⟩ := ih (fun c hc => hv c (List.mem_cons_of_mem _ hc))
        (fun c hc => hv' c (List.mem_cons_of_mem _ hc)) htail
      exact ⟨rfl, hsame⟩

/-- A value, and then names with values behind them. -/
def joined (v : List α) (fields : List (List α × List α)) : List α := v ++ fields.flatMap fun f => f.1 ++ f.2

theorem joined_cons (v : List α) (f : List α × List α) (fields : List (List α × List α)) :
    joined v (f :: fields) = v ++ (f.1 ++ joined f.2 fields) := by
  unfold joined
  rw [List.flatMap_cons, List.append_assoc f.1]

theorem joined_inj {stop : α → Prop} {fields fields' : List (List α × List α)} {v v' : List α}
    (hnames : fields.map Prod.fst = fields'.map Prod.fst)
    (hstop : ∀ name ∈ fields.map Prod.fst, ∃ b, name.head? = some b ∧ stop b)
    (hv : ∀ b ∈ v, ¬ stop b) (hv' : ∀ b ∈ v', ¬ stop b) (hfields : ∀ f ∈ fields, ∀ b ∈ f.2, ¬ stop b)
    (hfields' : ∀ f ∈ fields', ∀ b ∈ f.2, ¬ stop b) (h : joined v fields = joined v' fields') :
    v = v' ∧ fields = fields' := by
  induction fields generalizing fields' v v' with
  | nil =>
    cases fields' with
    | nil => exact ⟨by simpa [joined] using h, rfl⟩
    | cons f' rest' => simp at hnames
  | cons f rest ih =>
    cases fields' with
    | nil => simp at hnames
    | cons f' rest' =>
      obtain ⟨name, w⟩ := f
      obtain ⟨name', w'⟩ := f'
      rw [List.map_cons, List.map_cons] at hnames
      obtain ⟨rfl, hrest⟩ := List.cons.inj hnames
      obtain ⟨b, hb, hstops⟩ := hstop name List.mem_cons_self
      have hhead : ∀ (rest : List α), ∀ c ∈ (name ++ rest).head?, stop c := by
        intro rest c hc
        rw [List.head?_append, hb, Option.some_or, Option.mem_some_iff] at hc
        rwa [← hc]
      rw [joined_cons, joined_cons] at h
      obtain ⟨rfl, hbehind⟩ := append_inj_of_stop hv hv' (hhead _) (hhead _) h
      obtain ⟨rfl, rfl⟩ := ih hrest (fun n hn => hstop n (List.mem_cons_of_mem _ hn))
        (hfields _ List.mem_cons_self) (hfields' _ List.mem_cons_self)
        (fun f hf => hfields f (List.mem_cons_of_mem _ hf)) (fun f hf => hfields' f (List.mem_cons_of_mem _ hf))
        (List.append_cancel_left hbehind)
      exact ⟨rfl, rfl⟩

/-! ## Numbers -/

/-- The number that digits stand for, with the value of each digit. -/
def digitsValue (base : Nat) (value : α → Nat) (digits : List α) : Nat :=
  digits.foldl (fun n d => base * n + value d) 0

section Digits
variable {encode : Char → α} {value : α → Nat}

theorem digitsValue_toDigits {base : Nat} (hbase : 1 < base)
    (hvalue : ∀ d < base, value (encode (Nat.digitChar d)) = d) (n : Nat) :
    digitsValue base value ((Nat.toDigits base n).map encode) = n := by
  induction n using Nat.strong_induction_on with
  | _ n ih =>
    rw [Nat.toDigits_eq_if hbase]
    split
    · next hlt =>
      show base * 0 + value (encode (Nat.digitChar n)) = n
      rw [hvalue n hlt, Nat.mul_zero, Nat.zero_add]
    · next hge =>
      have hdiv : n / base < n := Nat.div_lt_self (by omega) hbase
      have hrest := ih _ hdiv
      unfold digitsValue at hrest ⊢
      rw [List.map_append, List.foldl_append, hrest]
      show base * (n / base) + value (encode (Nat.digitChar (n % base))) = n
      rw [hvalue _ (Nat.mod_lt n (by omega)), Nat.div_add_mod]

/-- Zeros in front change nothing. -/
theorem digitsValue_leftpad {base : Nat} (hzero : value (encode '0') = 0) (width : Nat) (digits : List Char) :
    digitsValue base value ((digits.leftpad width '0').map encode) = digitsValue base value (digits.map encode) := by
  have hpad : ∀ k, (List.replicate k (encode '0')).foldl (fun n d => base * n + value d) 0 = 0 := by
    intro k
    induction k with
    | zero => rfl
    | succ k ih =>
      rw [List.replicate_succ, List.foldl_cons, hzero, Nat.mul_zero, Nat.zero_add]
      exact ih
  unfold digitsValue List.leftpad
  rw [List.map_append, List.map_replicate, List.foldl_append, hpad]

variable (hvalue : ∀ d < 16, value (encode (Nat.digitChar d)) = d)
include hvalue

theorem unsigned_inj {bits n m : Nat}
    (h : (Piece.unsigned bits n).render encode = (Piece.unsigned bits m).render encode) : n = m := by
  have hread := fun k => @digitsValue_toDigits _ encode value 10 (by decide) (fun d hd => hvalue d (by omega)) k
  rw [← hread n, ← hread m]
  exact congrArg _ h

theorem hex_inj {width n m : Nat} (h : (Piece.hex width n).render encode = (Piece.hex width m).render encode) :
    n = m := by
  have hread := fun k => @digitsValue_toDigits _ encode value 16 (by decide) hvalue k
  have hpad := fun k => @digitsValue_leftpad _ encode value 16 (hvalue 0 (by decide)) width (Nat.toDigits 16 k)
  rw [← hread n, ← hread m, ← hpad n, ← hpad m]
  exact congrArg _ h

end Digits

/-- The value of a digit in ASCII. -/
def hexDigitValue (b : UInt8) : Nat := if b < 58 then b.toNat - 48 else b.toNat - 87

theorem hexDigitValue_digit : ∀ d < 16, hexDigitValue (UInt8.ofNat (Nat.digitChar d).toNat) = d := by decide

theorem mem_toDigits {base n : Nat} (hbase : 1 < base) {c : Char} (h : c ∈ Nat.toDigits base n) :
    ∃ d < base, c = Nat.digitChar d := by
  induction n using Nat.strong_induction_on with
  | _ n ih =>
    rw [Nat.toDigits_eq_if hbase] at h
    split at h
    · next hlt => exact ⟨n, hlt, List.mem_singleton.mp h⟩
    · next hge =>
      rcases List.mem_append.mp h with hrest | hlast
      · exact ih _ (Nat.div_lt_self (by omega) hbase) hrest
      · exact ⟨n % base, Nat.mod_lt n (by omega), List.mem_singleton.mp hlast⟩

/-- A conversion of a number is made of digits. -/
theorem mem_render_number {encode : Char → α} {piece : Piece α} {b : α} (h : b ∈ piece.render encode)
    (hnumber : (∃ bits n, piece = .unsigned bits n) ∨ ∃ width n, piece = .hex width n) :
    ∃ d < 16, b = encode (Nat.digitChar d) := by
  rcases hnumber with ⟨bits, n, rfl⟩ | ⟨width, n, rfl⟩
  · obtain ⟨c, hc, rfl⟩ := List.mem_map.mp h
    obtain ⟨d, hd, rfl⟩ := mem_toDigits (by decide) hc
    exact ⟨d, by omega, rfl⟩
  · obtain ⟨c, hc, rfl⟩ := List.mem_map.mp h
    rcases List.mem_append.mp hc with hzero | hdigit
    · exact ⟨0, by decide, by rw [List.eq_of_mem_replicate hzero]; rfl⟩
    · obtain ⟨d, hd, rfl⟩ := mem_toDigits (by decide) hdigit
      exact ⟨d, hd, rfl⟩

/-! ## Format strings -/

/-- The names and the values of pieces that alternate. -/
def fieldsOf (encode : Char → α) : List (Piece α) → List (List α × List α)
  | name :: v :: rest => (name.render encode, v.render encode) :: fieldsOf encode rest
  | _ => []

theorem render_eq_joined (encode : Char → α) (v : Piece α) : ∀ {pieces : List (Piece α)}, pieces.length % 2 = 0 →
    render encode (v :: pieces) = joined (v.render encode) (fieldsOf encode pieces)
  | [], _ => rfl
  | [_], h => by simp at h
  | name :: w :: rest, h => by
    have hrest := render_eq_joined encode w (show rest.length % 2 = 0 by
      rw [List.length_cons, List.length_cons] at h
      omega)
    rw [fieldsOf, joined_cons, ← hrest]
    rfl

end TcpipCourse.Lib
