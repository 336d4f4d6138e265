import Mathlib.Data.List.Basic

/-!
# Systematic erasure codes, column by column

A systematic code appends to `data` symbols the `parity` symbols its encoder computes from
them. A block of equal-length rows (packets, shards) is protected by applying the code to every
column of the block independently.

`Code.Restores` is what a decoder is for: given the positions that were lost, and a column that
agrees with a codeword everywhere else, it returns the data symbols of the codeword as long as
no more than `parity` positions were lost. `Restores.column` transfers this to rows: whatever
rows were lost, every column of the block that is a codeword is recovered. A column that is
*not* a codeword (bytes rewritten after encoding) promises nothing, and spoils no other.
-/

namespace Erasure

variable {α : Type*}

/-- A systematic code. -/
structure Code (α : Type*) where
  /-- The number of data symbols. -/
  data : ℕ
  /-- The number of parity symbols. -/
  parity : ℕ
  /-- The parity symbols of the given data symbols. -/
  encode : List α → List α

namespace Code

variable (C : Code α)

/-- Data symbols followed by their parity symbols. -/
def IsCodeword (col : List α) : Prop :=
  col.length = C.data + C.parity ∧ col.drop C.data = C.encode (col.take C.data)

/-- The decoder recovers the data of every codeword from any `parity` or fewer losses; `true`
marks a lost position, whose received symbol is arbitrary. -/
def Restores (decode : List Bool → List α → List α) : Prop :=
  ∀ (col received : List α) (marks : List Bool), C.IsCodeword col →
    marks.length = col.length → received.length = col.length → marks.count true ≤ C.parity →
    (∀ i : ℕ, marks[i]? = some false → received[i]? = col[i]?) →
    decode marks received = col.take C.data

end Code

/-- The `c`-th symbol of every row, a short row being extended with `d`. -/
def column (d : α) (rows : List (List α)) (c : ℕ) : List α := rows.map (·.getD c d)

@[simp]
theorem length_column (d : α) (rows : List (List α)) (c : ℕ) :
    (column d rows c).length = rows.length := by simp [column]

theorem getElem?_column (d : α) (rows : List (List α)) (c i : ℕ) :
    (column d rows c)[i]? = rows[i]?.map (·.getD c d) := by simp [column]

theorem column_append (d : α) (rows rows' : List (List α)) (c : ℕ) :
    column d (rows ++ rows') c = column d rows c ++ column d rows' c := by simp [column]

variable {C : Code α} {decode : List Bool → List α → List α}

/-- **Recovery by columns.** When at most `parity` rows are lost, decoding any codeword column of
what arrived returns that column of every data row, the lost ones included. -/
theorem Code.Restores.column (h : C.Restores decode) {d : α} {rows received : List (List α)}
    {marks : List Bool} {c : ℕ} (hcol : C.IsCodeword (Erasure.column d rows c))
    (hmarks : marks.length = rows.length) (hlen : received.length = rows.length)
    (hcount : marks.count true ≤ C.parity)
    (hkept : ∀ i : ℕ, marks[i]? = some false → received[i]? = rows[i]?) {i : ℕ} (hi : i < C.data) :
    (decode marks (Erasure.column d received c))[i]? = rows[i]?.map (·.getD c d) := by
  have hdec : decode marks (Erasure.column d received c) =
      (Erasure.column d rows c).take C.data := by
    refine h _ _ marks hcol (by simpa using hmarks) (by simpa using hlen) hcount fun j hj => ?_
    rw [getElem?_column, getElem?_column, hkept j hj]
  rw [hdec, List.getElem?_take, if_pos hi, getElem?_column]

end Erasure
