import TrialControl.Json.Reader
import TrialControl.Json.Writer
import TrialControl.Proofs.Stamps

/-!
# Written documents are read back

The reader sees one character at a time, so it knows the end of a number or a word only from what follows. What it
has read of a value is therefore stated together with the character that stops it: it goes on with that character as
after the value itself. A string stops with its own quote, a container with its own bracket.
-/

namespace TrialControl

open Text (spelled? digitsValue spanDigits)

/-! ## Units and digits -/

theorem Text.spelled?_cons (c : Char) (us : List Nat) (cs : List Char) :
    spelled? (c.toNat :: us) cs = spelled? us (c :: cs) := by
  have whole : isFirstHalf c.toNat = false ∧ isSecondHalf c.toNat = false := by
    have valid : c.toNat < 0xd800 ∨ 0xdfff < c.toNat ∧ c.toNat < 0x110000 := c.valid
    simp only [isFirstHalf, isSecondHalf, Bool.and_eq_false_iff, decide_eq_false_iff_not]
    omega
  cases us with
  | nil => simp [spelled?, whole]
  | cons u us => simp [spelled?, whole]

theorem Text.spelled?_toNat (ds cs : List Char) : spelled? (ds.map Char.toNat) cs = some (ds.reverse ++ cs) := by
  induction ds generalizing cs with
  | nil => rfl
  | cons d ds ih => rw [List.map_cons, spelled?_cons, ih, List.reverse_cons, List.append_assoc, List.singleton_append]

theorem Text.isDigit_decimal {n : Nat} {c : Char} (mem : c ∈ decimal n) : c.isDigit = true :=
  Nat.isDigit_of_mem_toDigits (by decide) (by decide) mem

theorem Text.spanDigits_decimal (n : Nat) : spanDigits (decimal n) = (decimal n, []) := by
  have all : ∀ c ∈ decimal n, c.isDigit = true := fun _ => isDigit_decimal
  have taken : (decimal n ++ []).takeWhile Char.isDigit = decimal n := takeWhile_digits all nofun
  have dropped : (decimal n ++ []).dropWhile Char.isDigit = [] := List.dropWhile_append_of_pos all
  rw [List.append_nil] at taken dropped
  rw [spanDigits, taken, dropped]

theorem Text.head?_decimal_ne {n : Nat} (positive : 0 < n) : (decimal n).head? ≠ some '0' := by
  induction n using Nat.strongRecOn with
  | ind n ih =>
    unfold decimal
    by_cases small : n < 10
    · rw [Nat.toDigits_of_lt_base small]
      have digits : ∀ m < 10, 0 < m → [m.digitChar].head? ≠ some '0' := by decide
      exact digits n small positive
    · rw [Nat.toDigits_of_base_le (by decide) (by omega), List.head?_append]
      -- a longer number begins as its tenth does
      have front := ih (n / 10) (by omega) (by omega)
      rcases digits : (Nat.toDigits 10 (n / 10)).head? with _ | c
      · exact absurd (List.head?_eq_none_iff.mp digits) Nat.toDigits_ne_nil
      · rwa [decimal, digits] at front

theorem Text.decimal_begins (n : Nat) :
    ¬ ((decimal n).isEmpty = true ∨ (decimal n).head? = some '0' ∧ (decimal n).length ≠ 1) := by
  rintro (empty | ⟨zero, more⟩)
  · exact Nat.toDigits_ne_nil (List.isEmpty_iff.mp empty)
  · by_cases positive : 0 < n
    · exact head?_decimal_ne positive zero
    · obtain rfl : n = 0 := by omega
      exact more rfl

/-! ## Fields in order -/

theorem Table.place_last {κ ν : Type} [Ord κ] [Std.OrientedOrd κ] {k : κ} {es : List (κ × ν)}
    (last : ∀ e ∈ es, compare e.1 k = .lt) (v : ν) : place k v es = es ++ [(k, v)] := by
  induction es with
  | nil => rfl
  | cons e es ih =>
    obtain ⟨here, later⟩ := List.forall_mem_cons.mp last
    have behind : compare k e.1 = .gt := Std.OrientedCmp.gt_of_lt here
    simp only [place, behind, ih later, List.cons_append]

theorem Document.put_last {name : String} {es : List (String × Document)}
    (last : ∀ e ∈ es, compare e.1 name = .lt) (d : Document) : put name d es = es ++ [(name, d)] := by
  have unnamed : Table.find name es = none := by
    induction es with
    | nil => rfl
    | cons e es ih =>
      obtain ⟨here, later⟩ := List.forall_mem_cons.mp last
      have behind : compare name e.1 = .gt := Std.OrientedCmp.gt_of_lt here
      rw [Table.find, behind, if_neg (by decide), ih later]
  rw [put, unnamed, Option.map_none, Option.getD_none, Table.place_last last]

theorem Document.foldl_put_append {es fs : List (String × Document)}
    (ascending : (es ++ fs).Pairwise fun a b => compare a.1 b.1 = .lt) :
    fs.foldl (fun es f => put f.1 f.2 es) es = es ++ fs := by
  induction fs generalizing es with
  | nil => rw [List.foldl_nil, List.append_nil]
  | cons f fs ih =>
    rw [List.append_cons] at ascending
    have last : ∀ e ∈ es, compare e.1 f.1 = .lt := by
      intro e mem
      exact (List.pairwise_append.mp (List.pairwise_append.mp ascending).1).2.2 e mem f (List.mem_singleton_self f)
    rw [List.foldl_cons, put_last last, ih ascending, List.append_assoc, List.singleton_append]

theorem Document.ofFields_eq_map (fs : List (String × Json)) : ofFields fs = fs.map fun f => (f.1, ofJson f.2) := by
  induction fs with
  | nil => rfl
  | cons f fs ih => rw [ofFields, ih, List.map_cons]

theorem Document.foldl_put {fs : List (String × Json)} (ascending : fs.Pairwise fun a b => compare a.1 b.1 = .lt) :
    fs.foldl (fun es f => put f.1 (ofJson f.2) es) [] = ofFields fs := by
  have ordered : (ofFields fs).Pairwise fun a b => compare a.1 b.1 = .lt := by
    rw [ofFields_eq_map]
    exact List.pairwise_map.mpr ascending
  have placed : (ofFields fs).foldl (fun es f => put f.1 f.2 es) [] = ofFields fs := foldl_put_append ordered
  rw [ofFields_eq_map, List.foldl_map] at placed
  rw [ofFields_eq_map]
  exact placed

namespace Json

theorem hexValue?_hexDigit {n : Nat} (small : n < 16) : Text.hexValue? (hexDigit n) = some n := by
  decide +revert

/-! ## Readers -/

namespace Reader

variable {r : Reader} {stack : List Open} {next : Next} {result d : Document} {units : List Nat} {cs rest : List Char}

def run (r : Reader) (cs : List Char) : Option Reader := cs.foldlM step r

theorem run_cons (r : Reader) (c : Char) (cs : List Char) : r.run (c :: cs) = (r.step c).bind (·.run cs) := rfl

theorem run_append (r : Reader) (cs ds : List Char) : r.run (cs ++ ds) = (r.run cs).bind (·.run ds) :=
  List.foldlM_append

/-- The characters that stop a number or a word in a written document, or stand behind it. -/
def stops : List Char := [',', ']', '\x7d', ' ']

def placed (stack : List Open) (result d : Document) : Reader :=
  match stack with
  | [] => ⟨.blank, [], .nothing, d⟩
  | .array items :: stack => ⟨.blank, .array (d :: items) :: stack, .separator, result⟩
  | .object fields name :: stack =>
    ⟨.blank, .object (do return Document.put (← name) d (← fields)) name :: stack, .separator, result⟩

theorem value_eq (ready : next = .value ∨ next = .firstItem) (p : Piece) :
    (Reader.mk p stack next result).value d = some { placed stack result d with piece := p } := by
  unfold value
  rw [if_pos ready]
  rcases stack with _ | ⟨_ | _, _⟩ <;> rfl

theorem value_blank (ready : next = .value ∨ next = .firstItem) :
    (Reader.mk .blank stack next result).value d = some (placed stack result d) := by
  rw [value_eq ready]
  rcases stack with _ | ⟨_ | _, _⟩ <;> rfl

theorem step_placed (c : Char) : (placed stack result d).step c = (placed stack result d).between c := by
  rcases stack with _ | ⟨_ | _, _⟩ <;> rfl

def Reads (stack : List Open) (next : Next) (result : Document) (cs : List Char) (d : Document) : Prop :=
  ∀ stop ∈ stops, ∀ rest,
    (Reader.mk .blank stack next result).run (cs ++ stop :: rest) = (placed stack result d).run (stop :: rest)

/-! ## Strings -/

theorem run_escapeChar (c : Char) :
    (Reader.mk (.text units) stack next result).run (escapeChar c) =
      some ⟨.text (c.toNat :: units), stack, next, result⟩ := by
  unfold escapeChar
  split
  -- what has an escape of two characters is read by computation
  all_goals try rfl
  next quote slash _ _ _ _ _ =>
    by_cases control : c.toNat < 0x20
    · have high := hexValue?_hexDigit (n := c.toNat / 16) (by omega)
      have low := hexValue?_hexDigit (n := c.toNat % 16) (by omega)
      have whole : 16 * (c.toNat / 16) + c.toNat % 16 = c.toNat := Nat.div_add_mod ..
      have zero : Text.hexValue? '0' = some 0 := rfl
      rw [if_pos control]
      simp [run_cons, step, inside, high, low, zero, whole]
      rfl
    · rw [if_neg control]
      have plain : (Reader.mk (.text units) stack next result).step c =
          some ⟨.text (c.toNat :: units), stack, next, result⟩ := by
        simp only [step, inside]
        rw [if_neg quote, if_neg slash, if_neg control]
      rw [run_cons, plain]
      rfl

theorem run_chars (chars : List Char) :
    (Reader.mk (.text units) stack next result).run (chars.flatMap escapeChar) =
      some ⟨.text (chars.reverse.map Char.toNat ++ units), stack, next, result⟩ := by
  induction chars generalizing units with
  | nil => rfl
  | cons c chars ih =>
    rw [List.flatMap_cons, run_append, run_escapeChar, Option.bind_some, ih]
    simp

theorem run_stringText (s : String) (rest : List Char) :
    (Reader.mk .blank stack next result).run ((stringText s).toList ++ rest) =
      ((Reader.mk .blank stack next result).string (some s)).bind (·.run rest) := by
  have spelled : (spelled? (s.toList.reverse.map Char.toNat) []).map String.ofList = some s := by
    rw [Text.spelled?_toNat, List.reverse_reverse, List.append_nil, Option.map_some, String.ofList_toList]
  have closed : (Reader.mk (.text (s.toList.reverse.map Char.toNat)) stack next result).step '"' =
      (Reader.mk .blank stack next result).string (some s) := by
    rw [← spelled]
    rfl
  rw [stringText, String.toList_ofList, List.cons_append, List.cons_append, List.append_assoc, run_cons]
  show ((Reader.mk (.text []) stack next result).run _) = _
  rw [run_append, run_chars, List.append_nil, Option.bind_some, List.singleton_append, run_cons, closed]

theorem reads_stringText (ready : next = .value ∨ next = .firstItem) (s : String) :
    Reads stack next result (stringText s).toList (.text s) := by
  intro stop _ rest
  have unnamed : ¬ (next = .name ∨ next = .firstName) := by
    rcases ready with rfl | rfl <;> decide
  rw [run_stringText, string, if_neg unnamed]
  show ((Reader.mk .blank stack next result).value (.text s)).bind _ = _
  rw [value_blank ready, Option.bind_some]

/-! ## Words and numbers -/

theorem stop_ends {stop : Char} (ends : stop ∈ stops) : stop.isAlpha = false ∧ isNumberChar stop = false := by
  simp only [stops, List.mem_cons, List.not_mem_nil, or_false] at ends
  rcases ends with rfl | rfl | rfl | rfl <;> exact ⟨rfl, rfl⟩

section
variable (ready : next = .value ∨ next = .firstItem)
include ready

theorem run_stopped {p : Piece} {stop : Char}
    (stopped : (Reader.mk p stack next result).step stop =
      ((Reader.mk p stack next result).value d).bind (·.between stop)) (rest : List Char) :
    (Reader.mk p stack next result).run (stop :: rest) = (placed stack result d).run (stop :: rest) := by
  have begun : (Reader.mk p stack next result).step stop = (placed stack result d).step stop := by
    rw [stopped, value_eq ready, step_placed]
    rfl
  rw [run_cons, run_cons, begun]

theorem run_word {chars : List Char} (named : ∀ r : Reader, r.word chars = r.value d) {stop : Char}
    (ends : stop ∈ stops) (rest : List Char) :
    (Reader.mk (.word chars) stack next result).run (stop :: rest) = (placed stack result d).run (stop :: rest) := by
  refine run_stopped ready ?_ rest
  simp only [step]
  rw [if_neg (by simp [(stop_ends ends).1]), named]
  rfl

theorem run_number {chars : List Char} (denoted : readNumber chars.reverse = some d) {stop : Char}
    (ends : stop ∈ stops) (rest : List Char) :
    (Reader.mk (.number chars) stack next result).run (stop :: rest) = (placed stack result d).run (stop :: rest) := by
  refine run_stopped ready ?_ rest
  simp only [step]
  rw [if_neg (by simp [(stop_ends ends).2]), denoted]
  rfl

theorem reads_null : Reads stack next result (render .null).toList .null :=
  fun _ ends => run_word ready (fun _ => rfl) ends

theorem reads_bool (b : Bool) : Reads stack next result (render (.bool b)).toList (.bool b) := by
  intro stop ends rest
  cases b with
  | false => exact run_word ready (fun _ => rfl) ends rest
  | true => exact run_word ready (fun _ => rfl) ends rest

end

/-! ## Integers -/

theorem run_numberChars {chars more : List Char} (numeric : ∀ c ∈ more, isNumberChar c = true) :
    (Reader.mk (.number chars) stack next result).run more =
      some ⟨.number (more.reverse ++ chars), stack, next, result⟩ := by
  induction more generalizing chars with
  | nil => rfl
  | cons c more ih =>
    obtain ⟨here, later⟩ := List.forall_mem_cons.mp numeric
    have taken : (Reader.mk (.number chars) stack next result).step c =
        some ⟨.number (c :: chars), stack, next, result⟩ := by
      simp only [step]
      rw [if_pos here]
    rw [run_cons, taken, Option.bind_some, ih later]
    simp

theorem isNumberChar_of_isDigit {c : Char} (digit : c.isDigit = true) : isNumberChar c = true := by
  simp [isNumberChar, digit]

theorem reads_number (ready : next = .value ∨ next = .firstItem) {c : Char} {cs : List Char}
    (begins : c = '-' ∨ c.isDigit = true) (digits : ∀ x ∈ cs, x.isDigit = true)
    (denoted : readNumber (c :: cs) = some d) : Reads stack next result (c :: cs) d := by
  intro stop ends rest
  have begun : (Reader.mk .blank stack next result).step c = some ⟨.number [c], stack, next, result⟩ := by
    rcases begins with rfl | digit
    · rfl
    · simp only [step, between]
      split
      all_goals try exact absurd digit (by decide)
      rw [if_pos digit]
  rw [List.cons_append, run_cons, begun, Option.bind_some, run_append,
    run_numberChars fun x mem => isNumberChar_of_isDigit (digits x mem), Option.bind_some]
  refine run_number ready ?_ ends rest
  simpa using denoted

theorem readNumber_decimal {n : Nat} (small : n < UInt64.size) : readNumber (Text.decimal n) = some (.integer n) := by
  have begins := Text.decimal_begins n
  unfold readNumber
  split
  next negative cs signed =>
  split at signed
  · next minus =>
    have digit := Text.isDigit_decimal (n := n) (minus ▸ List.mem_cons_self ..)
    cases digit
  · obtain ⟨rfl, rfl⟩ := Prod.mk.inj signed
    rw [Text.spanDigits_decimal]
    dsimp only
    rw [if_neg begins]
    simp [readExponent, Text.digitsValue_decimal, small]

theorem readNumber_negative {n : Nat} (positive : 0 < n) (small : n ≤ 9_223_372_036_854_775_808) :
    readNumber ('-' :: Text.decimal n) = some (.integer (-n)) := by
  have bounds : -9_223_372_036_854_775_808 ≤ -(n : Int) ∧ ¬ 18_446_744_073_709_551_616 ≤ -(n : Int) ∧ ¬ n = 0 := by
    omega
  unfold readNumber
  split
  next negative cs signed =>
  obtain ⟨rfl, rfl⟩ := Prod.mk.inj signed
  rw [Text.spanDigits_decimal]
  dsimp only
  rw [if_neg (Text.decimal_begins n)]
  simp [readExponent, Text.digitsValue_decimal, bounds]

theorem reads_integer (ready : next = .value ∨ next = .firstItem) {i : Int}
    (fits : -9_223_372_036_854_775_808 ≤ i ∧ i < UInt64.size) :
    Reads stack next result (render (.integer i)).toList (.integer i) := by
  cases i with
  | ofNat n =>
    have chars : (render (.integer (.ofNat n))).toList = Text.decimal n := Nat.toList_repr
    have denoted := readNumber_decimal (n := n) (Int.ofNat_lt.mp fits.2)
    have digits : ∀ c ∈ Text.decimal n, c.isDigit = true := fun _ => Text.isDigit_decimal
    rw [chars]
    rcases decimal : Text.decimal n with _ | ⟨c, cs⟩
    · exact absurd decimal Nat.toDigits_ne_nil
    · rw [decimal] at denoted digits
      exact reads_number ready (.inr (digits c (List.mem_cons_self ..))) (List.forall_mem_cons.mp digits).2 denoted
  | negSucc n =>
    have chars : (render (.integer (.negSucc n))).toList = '-' :: Text.decimal (n + 1) := by
      show ("-" ++ Nat.repr (n + 1)).toList = _
      rw [String.toList_append, Nat.toList_repr]
      rfl
    have least := fits.1
    rw [Int.negSucc_eq] at least
    have denoted := readNumber_negative (n := n + 1) (by omega) (by omega)
    rw [chars]
    exact reads_number ready (.inl rfl) (fun _ => Text.isDigit_decimal) denoted

/-! ## Containers -/

theorem close_eq (room : stack.length < maxDepth) (r : Reader) (piece : r.piece = .blank) (same : r.result = result) :
    r.close d stack = some (placed stack result d) := by
  have shallow : (stack.drop (maxDepth - 1)).isEmpty = true := by
    rw [List.isEmpty_iff, List.drop_eq_nil_iff]
    omega
  obtain ⟨p, s, n, res⟩ := r
  cases piece
  cases same
  unfold close
  rw [if_pos shallow]
  exact value_blank (.inl rfl)

theorem step_closeArray (room : stack.length < maxDepth) (items : List Document)
    (ends : next = .separator ∨ next = .firstItem) :
    (Reader.mk .blank (.array items :: stack) next result).step ']' =
      some (placed stack result (.array items.reverse)) := by
  show (Reader.mk .blank (.array items :: stack) next result).closeArray = _
  unfold closeArray
  dsimp only
  rw [if_pos ends]
  exact close_eq room _ rfl rfl

theorem step_closeObject (room : stack.length < maxDepth) (fields : List (String × Document)) (name : Option String)
    (ends : next = .separator ∨ next = .firstName) :
    (Reader.mk .blank (.object (some fields) name :: stack) next result).step '\x7d' =
      some (placed stack result (.object fields)) := by
  show (Reader.mk .blank (.object (some fields) name :: stack) next result).closeObject = _
  unfold closeObject
  dsimp only
  rw [if_pos ends]
  exact close_eq room _ rfl rfl

theorem step_open (ready : next = .value ∨ next = .firstItem) :
    (Reader.mk .blank stack next result).step '[' = some ⟨.blank, .array [] :: stack, .firstItem, result⟩ ∧
      (Reader.mk .blank stack next result).step '\x7b' =
        some ⟨.blank, .object (some []) none :: stack, .firstName, result⟩ :=
  ⟨if_pos ready, if_pos ready⟩

section
variable {items : List Document} {fields : List (String × Document)} {last : Option String} {name : String}

theorem Reads.next_item (reads : Reads (.array items :: stack) next result cs d) (rest : List Char) :
    (Reader.mk .blank (.array items :: stack) next result).run (cs ++ ',' :: rest) =
      (Reader.mk .blank (.array (d :: items) :: stack) .value result).run rest :=
  reads ',' (by decide) rest

theorem Reads.last_item (reads : Reads (.array items :: stack) next result cs d) (room : stack.length < maxDepth)
    (rest : List Char) :
    (Reader.mk .blank (.array items :: stack) next result).run (cs ++ ']' :: rest) =
      (placed stack result (.array (d :: items).reverse)).run rest := by
  refine (reads ']' (by decide) rest).trans ?_
  show (Reader.mk .blank (.array (d :: items) :: stack) .separator result).run (']' :: rest) = _
  rw [run_cons, step_closeArray room _ (.inl rfl), Option.bind_some]

variable (begins : next = .name ∨ next = .firstName)
include begins

theorem run_name (rest : List Char) :
    (Reader.mk .blank (.object (some fields) last :: stack) next result).run
        ((stringText name).toList ++ ':' :: rest) =
      (Reader.mk .blank (.object (some fields) (some name) :: stack) .value result).run rest := by
  rw [run_stringText, string, if_pos begins]
  rfl

theorem Reads.next_field (reads : Reads (.object (some fields) (some name) :: stack) .value result cs d)
    (rest : List Char) :
    (Reader.mk .blank (.object (some fields) last :: stack) next result).run
        ((stringText name).toList ++ ':' :: (cs ++ ',' :: rest)) =
      (Reader.mk .blank (.object (some (Document.put name d fields)) (some name) :: stack) .name result).run rest :=
  (run_name begins _).trans (reads ',' (by decide) rest)

theorem Reads.last_field (reads : Reads (.object (some fields) (some name) :: stack) .value result cs d)
    (room : stack.length < maxDepth) (rest : List Char) :
    (Reader.mk .blank (.object (some fields) last :: stack) next result).run
        ((stringText name).toList ++ ':' :: (cs ++ '\x7d' :: rest)) =
      (placed stack result (.object (Document.put name d fields))).run rest := by
  refine ((run_name begins _).trans (reads '\x7d' (by decide) rest)).trans ?_
  show (Reader.mk .blank (.object (some (Document.put name d fields)) (some name) :: stack) .separator result).run
    ('\x7d' :: rest) = _
  rw [run_cons, step_closeObject room _ _ (.inl rfl), Option.bind_some]

end

end Reader

/-! ## Values -/

mutual
/-- Whether a value is read back within containers that leave room for so many others: integers are in range,
fields in order, and there is no floating point. -/
def Readable : Json → Nat → Prop
  | .null, _ | .bool _, _ | .text _, _ => True
  | .integer i, _ => -9_223_372_036_854_775_808 ≤ i ∧ i < UInt64.size
  | .float _, _ => False
  | .array js, room => 0 < room ∧ ReadableItems js (room - 1)
  | .object fs, room => 0 < room ∧ (fs.Pairwise fun a b => compare a.1 b.1 = .lt) ∧ ReadableFields fs (room - 1)
def ReadableItems : List Json → Nat → Prop
  | [], _ => True
  | j :: js, room => j.Readable room ∧ ReadableItems js room
def ReadableFields : List (String × Json) → Nat → Prop
  | [], _ => True
  | (_, j) :: fs, room => j.Readable room ∧ ReadableFields fs room
end

theorem readableFields_iff {fs : List (String × Json)} {room : Nat} :
    ReadableFields fs room ↔ ∀ f ∈ fs, f.2.Readable room := by
  induction fs with
  | nil => exact iff_of_true trivial nofun
  | cons f fs ih => rw [ReadableFields, ih, List.forall_mem_cons]

theorem readable_ofFields {fs : List (String × Json)} {room : Nat} (fields : ∀ f ∈ fs, f.2.Readable room) :
    (ofFields fs).Readable (room + 1) := by
  have sound : ∀ es : List (String × Json), (es.Pairwise fun a b => compare a.1 b.1 = .lt) →
      (∀ f ∈ es, f.2.Readable room) →
      ((fs.foldl (fun es f => Table.place f.1 f.2 es) es).Pairwise fun a b => compare a.1 b.1 = .lt) ∧
        ∀ f ∈ fs.foldl (fun es f => Table.place f.1 f.2 es) es, f.2.Readable room := by
    induction fs with
    | nil => exact fun es ascending readable => ⟨ascending, readable⟩
    | cons f fs ih =>
      intro es ascending readable
      obtain ⟨here, later⟩ := List.forall_mem_cons.mp fields
      refine ih later _ (Table.ascending_place f.1 f.2 ascending) fun e mem => ?_
      rcases Table.mem_place mem with rfl | mem
      · exact here
      · exact readable e mem
  obtain ⟨ascending, readable⟩ := sound [] .nil nofun
  exact ⟨Nat.succ_pos room, ascending, readableFields_iff.mpr readable⟩

namespace Reader

variable {stack : List Open} {next : Next} {result : Document}

theorem chars_items (j j' : Json) (js : List Json) :
    (renderItems (j :: j' :: js)).toList = (render j).toList ++ ',' :: (renderItems (j' :: js)).toList := by
  rw [renderItems, String.toList_append, String.toList_append, List.append_assoc]
  · rfl
  · exact List.cons_ne_nil j' js

theorem chars_field (name : String) (j : Json) :
    (renderFields [(name, j)]).toList = (stringText name).toList ++ ':' :: (render j).toList := by
  rw [renderFields, String.toList_append, String.toList_append, List.append_assoc]
  rfl

theorem chars_fields (name : String) (j : Json) (f : String × Json) (fs : List (String × Json)) :
    (renderFields ((name, j) :: f :: fs)).toList =
      (stringText name).toList ++ ':' :: ((render j).toList ++ ',' :: (renderFields (f :: fs)).toList) := by
  rw [renderFields]
  · simp only [String.toList_append, List.append_assoc]
    rfl
  · exact List.cons_ne_nil f fs

theorem chars_array (js : List Json) : (render (.array js)).toList = '[' :: ((renderItems js).toList ++ [']']) := by
  rw [render, String.toList_append, String.toList_append]
  rfl

theorem chars_object (fs : List (String × Json)) :
    (render (.object fs)).toList = '\x7b' :: ((renderFields fs).toList ++ ['\x7d']) := by
  rw [render, String.toList_append, String.toList_append]
  rfl

def ReadsBack (room : Nat) (j : Json) : Prop :=
  ∀ ⦃stack next result⦄, next = .value ∨ next = .firstItem → stack.length + room ≤ maxDepth →
    Reads stack next result (render j).toList j

variable {room : Nat}

theorem run_items {j : Json} {js : List Json} (back : ∀ x ∈ j :: js, ReadsBack room x)
    (ready : next = .value ∨ next = .firstItem) (fits : stack.length + 1 + room ≤ maxDepth) (items : List Document)
    (rest : List Char) :
    (Reader.mk .blank (.array items :: stack) next result).run ((renderItems (j :: js)).toList ++ ']' :: rest) =
      (placed stack result (.array (items.reverse ++ Document.ofItems (j :: js)))).run rest := by
  induction js generalizing j next items with
  | nil =>
    have reads : Reads (.array items :: stack) next result (render j).toList j := back j (by simp) ready fits
    rw [renderItems, reads.last_item (by omega), List.reverse_cons]
    rfl
  | cons j' js ih =>
    have reads : Reads (.array items :: stack) next result (render j).toList j := back j (by simp) ready fits
    rw [chars_items, List.append_assoc, List.cons_append, reads.next_item,
      ih (fun x mem => back x (List.mem_cons_of_mem _ mem)) (.inl rfl), List.reverse_cons, List.append_assoc]
    rfl

theorem run_fields {f : String × Json} {fs : List (String × Json)} (back : ∀ x ∈ f :: fs, ReadsBack room x.2)
    (begins : next = .name ∨ next = .firstName) (fits : stack.length + 1 + room ≤ maxDepth)
    (fields : List (String × Document)) (last : Option String) (rest : List Char) :
    (Reader.mk .blank (.object (some fields) last :: stack) next result).run
        ((renderFields (f :: fs)).toList ++ '\x7d' :: rest) =
      (placed stack result
        (.object ((f :: fs).foldl (fun es x => Document.put x.1 (Document.ofJson x.2) es) fields))).run rest := by
  induction fs generalizing f next fields last with
  | nil =>
    obtain ⟨name, j⟩ := f
    have reads : Reads (.object (some fields) (some name) :: stack) .value result (render j).toList j :=
      back (name, j) (by simp) (.inl rfl) fits
    rw [chars_field, List.append_assoc, List.cons_append, reads.last_field begins (by omega)]
    rfl
  | cons f' fs ih =>
    obtain ⟨name, j⟩ := f
    have reads : Reads (.object (some fields) (some name) :: stack) .value result (render j).toList j :=
      back (name, j) (by simp) (.inl rfl) fits
    rw [chars_fields, List.append_assoc, List.cons_append, List.append_assoc, List.cons_append,
      reads.next_field begins, ih (fun x mem => back x (List.mem_cons_of_mem _ mem)) (.inl rfl)]
    rfl

theorem readsBack_array {js : List Json} (positive : 0 < room) (back : ∀ x ∈ js, ReadsBack (room - 1) x) :
    ReadsBack room (.array js) := by
  intro stack next result ready fits stop _ rest
  rw [chars_array, List.cons_append, run_cons, (step_open ready).1, Option.bind_some, List.append_assoc,
    List.singleton_append]
  cases js with
  | nil =>
    show (Reader.mk .blank (.array [] :: stack) .firstItem result).run (']' :: stop :: rest) = _
    rw [run_cons, step_closeArray (by omega) [] (.inr rfl)]
    rfl
  | cons j js => exact run_items back (.inr rfl) (by omega) [] (stop :: rest)

theorem readsBack_object {fs : List (String × Json)} (positive : 0 < room)
    (ascending : fs.Pairwise fun a b => compare a.1 b.1 = .lt) (back : ∀ x ∈ fs, ReadsBack (room - 1) x.2) :
    ReadsBack room (.object fs) := by
  intro stack next result ready fits stop _ rest
  rw [chars_object, List.cons_append, run_cons, (step_open ready).2, Option.bind_some, List.append_assoc,
    List.singleton_append]
  cases fs with
  | nil =>
    show (Reader.mk .blank (.object (some []) none :: stack) .firstName result).run ('\x7d' :: stop :: rest) = _
    rw [run_cons, step_closeObject (by omega) [] none (.inr rfl)]
    rfl
  | cons f fs =>
    refine (run_fields back (.inr rfl) (by omega) [] none (stop :: rest)).trans ?_
    rw [Document.foldl_put ascending]
    rfl

mutual
theorem readsBack : (j : Json) → {room : Nat} → j.Readable room → ReadsBack room j
  | .null, _, _ => fun _ _ _ ready _ => reads_null ready
  | .bool b, _, _ => fun _ _ _ ready _ => reads_bool ready b
  | .integer _, _, fits => fun _ _ _ ready _ => reads_integer ready fits
  | .text s, _, _ => fun _ _ _ ready _ => reads_stringText ready s
  | .float _, _, impossible => impossible.elim
  | .array js, _, readable => readsBack_array readable.1 (readsBack_items js readable.2)
  | .object fs, _, readable => readsBack_object readable.1 readable.2.1 (readsBack_fields fs readable.2.2)
theorem readsBack_items : (js : List Json) → {room : Nat} → ReadableItems js room → ∀ x ∈ js, ReadsBack room x
  | [], _, _ => nofun
  | j :: js, _, readable => List.forall_mem_cons.mpr ⟨readsBack j readable.1, readsBack_items js readable.2⟩
theorem readsBack_fields : (fs : List (String × Json)) → {room : Nat} → ReadableFields fs room →
    ∀ x ∈ fs, ReadsBack room x.2
  | [], _, _ => nofun
  | (_, j) :: fs, _, readable => List.forall_mem_cons.mpr ⟨readsBack j readable.1, readsBack_fields fs readable.2⟩
end

theorem finish_eq (r : Reader) :
    r.finish = (r.run [' ']).bind fun r => match r.piece with
      | .blank => if r.next = .nothing then some r.result else none
      | _ => none := by
  rw [run_cons]
  unfold finish
  cases r.step ' ' <;> rfl

end Reader

theorem ofText?_render {j : Json} (readable : j.Readable maxDepth) :
    Document.ofText? (render j) = some (j : Document) := by
  have room : ([] : List Open).length + maxDepth ≤ maxDepth := by decide
  have reads : (Reader.start.run (render j).toList).bind (·.run [' ']) = (Reader.placed [] .null j).run [' '] := by
    rw [← Reader.run_append]
    exact Reader.readsBack j readable (.inl rfl) room ' ' (by decide) []
  show (Reader.start.run (render j).toList).bind Reader.finish = _
  cases written : Reader.start.run (render j).toList with
  | none => rw [written] at reads; cases reads
  | some r =>
    rw [written, Option.bind_some] at reads
    rw [Option.bind_some, r.finish_eq, reads]
    rfl

end Json

end TrialControl
