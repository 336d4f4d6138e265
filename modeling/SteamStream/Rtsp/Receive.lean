import Mathlib.Data.FinEnum
import SteamStream.Library.CText
import SteamStream.Library.Search

/-!
# Reading an RTSP request from a connection

`receive_message` appends what it reads to what it has, and searches all of it for the length of
the body. As long as fewer bytes are there than it expects it goes on reading; otherwise, and
also when it has found no length, the text is parsed and handed on.

The name of the header, its number and the end of its line may all be cut. Without the name the
request is taken to be complete; without the end of the line the position of the end is `npos`,
and the unsigned sum wraps around to the number alone; and the sum leaves out whatever stands
between the line and the body. `framed_iff` is the exact condition on the cuts.
-/

namespace SteamStream.Rtsp

open Wire CText Search

/-- `max_msg_size`. -/
def maxMsgSize : ℕ := 4096

/-- What one `async_read` delivers: at least one byte, and at most what the buffer holds. -/
structure Read where
  rawMsg : Bytes
  ne_nil : rawMsg ≠ []
  length_le : rawMsg.length ≤ maxMsgSize
deriving DecidableEq

/-- `tcp_connection`: what has been read before. -/
structure TcpConnection where
  prevRead : Bytes := []
  /-- An `int`. -/
  prevReadBytes : ℤ := 0

/-- What comes of one read. -/
inductive Received (α : Type)
  /-- It goes on reading. -/
  | more (connection : TcpConnection)
  | parsed (msg : α)
  | threw

/-- `std::string::npos`. -/
def npos : ℕ := 2 ^ 64 - 1

/-- `std::string::resize`, `none` when it throws. -/
def resize (s : Bytes) (n : ℕ) : Option Bytes :=
  if n < 2 ^ 63 then some (s.take n ++ List.replicate (n - s.length) 0) else none

/-- The name of the header that says how long the body is. -/
def contentLength : Bytes := ascii "Content-length: "

def crlf : Bytes := [13, 10]

section Receive

variable {α : Type} (parse : Bytes → α)

/-- The handler of `receive_message`. -/
def TcpConnection.receiveMessage (connection : TcpConnection) (read : Read) : Received α :=
  let total := ((connection.prevReadBytes + read.rawMsg.length) % 2 ^ 64).toNat
  match resize (connection.prevRead ++ read.rawMsg) total with
  | none => .threw
  | some full =>
    match find full contentLength 0 with
    | none => .parsed (parse full)
    | some name =>
      let clPos := name + 16
      let clEnd := (find full crlf clPos).getD npos
      match stoi ((full.drop clPos).take (clEnd - clPos)) with
      | none => .threw
      | some length =>
        let totalLength := ((length + clEnd + 2) % 2 ^ 64).toNat
        if total < totalLength then
          .more {
            prevRead := full
            prevReadBytes := toInt32 (connection.prevReadBytes + read.rawMsg.length) }
        else .parsed (parse full)

/-- A connection, read by read, until there is a result: the result and the reads left. -/
def TcpConnection.receive (connection : TcpConnection) : List Read → Option (α × List Read)
  | [] => none
  | read :: reads =>
    match connection.receiveMessage parse read with
    | .more connection => connection.receive reads
    | .parsed msg => some (msg, reads)
    | .threw => none

/-- The text the reads divide. -/
def message (reads : List Read) : Bytes := reads.flatMap Read.rawMsg

/-- There is exactly one result, after the last read, and it is that of the whole text. -/
def Framed (reads : List Read) : Prop :=
  ({} : TcpConnection).receive parse reads = some (parse (message reads), [])

end Receive

/-! ### Complete requests -/

/-- The number a header line gives as the length of the body. -/
def declaredBy (line : Bytes) : Option ℕ :=
  let digits := line.drop 16
  if contentLength <+: line ∧ digits ≠ [] ∧ ∀ c ∈ digits, isDigit c = true then
    some (digitsValue digits)
  else none

/-- A request: its header lines, and the body. -/
structure Request where
  lines : List Bytes
  body : Bytes
  /-- A line is not empty, and ends at its line break. -/
  lines_ok : ∀ line ∈ lines, line ≠ [] ∧ (13 : UInt8) ∉ line ∧ (10 : UInt8) ∉ line
  /-- The body is as long as the header says. -/
  length_body : body.length = (lines.findSome? declaredBy).getD 0

/-- The bytes of a request. -/
def Request.text (request : Request) : Bytes :=
  request.lines.flatMap (· ++ crlf) ++ crlf ++ request.body

/-! ### Where a request may be cut -/

/-- The number, as far as it lies in front of the cut. -/
def numberText (m : Bytes) (name stop cut : ℕ) : Bytes :=
  (m.drop (name + 16)).take ((if stop + 2 ≤ cut then stop else cut) - (name + 16))

/-- A cut behind which the reader goes on: the name lies in front of it, and so does a number.
With the end of the line in front of it, the number counts the bytes from there on; without it,
all bytes. (Below zero, the unsigned sum is larger than any text.) -/
structure GoesOn (m : Bytes) (name stop cut : ℕ) : Prop where
  name_le : name + 16 ≤ cut
  int : cut < 2 ^ 31
  number : ∃ n : ℤ, stoi (numberText m name stop cut) = some n ∧
    if stop + 2 ≤ cut then (cut : ℤ) < stop + 2 + n ∨ (stop : ℤ) + 2 + n < 0
    else (cut : ℤ) ≤ n ∨ n < -1

/-- The reader stops at the end of the text. -/
def Stops (m : Bytes) (name stop : ℕ) : Prop :=
  ∃ n : ℤ, stoi (numberText m name stop m.length) = some n ∧
    0 ≤ (stop : ℤ) + 2 + n ∧ (stop : ℤ) + 2 + n ≤ m.length

/-- The places the reads divide the text at, behind the given offset. -/
def cuts : ℕ → List Read → List ℕ
  | _, [] => []
  | _, [_] => []
  | offset, read :: reads => (offset + read.rawMsg.length) :: cuts (offset + read.rawMsg.length) reads

/-- The reads of a text that is put together again. -/
def WellCut (reads : List Read) : Prop :=
  match find (message reads) contentLength 0 with
  | none => cuts 0 reads = []
  | some name =>
    ∃ stop, find (message reads) crlf (name + 16) = some stop ∧
      (∀ cut ∈ cuts 0 reads, GoesOn (message reads) name stop cut) ∧
      Stops (message reads) name stop

/-! ### One read -/

section Examine

variable {α : Type} {parse : Bytes → α} {m : Bytes} {name stop cut : ℕ} {n : ℤ}

/-- Whether the reader goes on with what it has; `none` when it throws. -/
def goesOn (full : Bytes) : Option Bool :=
  match find full contentLength 0 with
  | none => some false
  | some name =>
    let clEnd := (find full crlf (name + 16)).getD npos
    (stoi ((full.drop (name + 16)).take (clEnd - (name + 16)))).map fun length =>
      full.length < ((length + clEnd + 2) % 2 ^ 64).toNat

theorem stoi_bounds {s : Bytes} (h : stoi s = some n) : -2 ^ 31 ≤ n ∧ n < 2 ^ 31 := by
  unfold stoi at h
  split at h
  · cases h
  · split_ifs at h with hn
    exact Option.some.inj h ▸ hn

/-- As long as the `int` counts what has been read, nothing is cut off or added. -/
theorem receiveMessage_eq {full : Bytes} {read : Read} (hfull : full.length < 2 ^ 31) :
    (⟨full, full.length⟩ : TcpConnection).receiveMessage parse read =
      match goesOn (full ++ read.rawMsg) with
      | none => .threw
      | some true => .more ⟨full ++ read.rawMsg, toInt32 (full ++ read.rawMsg).length⟩
      | some false => .parsed (parse (full ++ read.rawMsg)) := by
  have hread := read.length_le
  have hlength : (full ++ read.rawMsg).length = full.length + read.rawMsg.length :=
    List.length_append
  have htotal : (((full ++ read.rawMsg).length : ℤ) % 2 ^ 64).toNat =
      (full ++ read.rawMsg).length := by
    rw [maxMsgSize] at hread
    omega
  have hresize : resize (full ++ read.rawMsg) (full ++ read.rawMsg).length =
      some (full ++ read.rawMsg) := by
    rw [maxMsgSize] at hread
    rw [resize, if_pos (by omega), List.take_length, Nat.sub_self]
    exact congrArg some (List.append_nil _)
  have hint : (full.length : ℤ) + read.rawMsg.length = (full ++ read.rawMsg).length := by
    rw [hlength]
    exact (Nat.cast_add ..).symm
  simp only [TcpConnection.receiveMessage, hint, htotal, hresize, goesOn]
  cases find (full ++ read.rawMsg) contentLength 0 with
  | none => rfl
  | some name =>
    dsimp only
    cases stoi (((full ++ read.rawMsg).drop (name + 16)).take
      ((find (full ++ read.rawMsg) crlf (name + 16)).getD npos - (name + 16))) with
    | none => rfl
    | some length =>
      simp only [Option.map_some]
      split_ifs with hlt
      · simp only [hlt, decide_true]
      · simp only [hlt, decide_false]

theorem receiveMessage_threw {connection : TcpConnection} {read : Read}
    (h : resize (connection.prevRead ++ read.rawMsg)
      ((connection.prevReadBytes + read.rawMsg.length) % 2 ^ 64).toNat = none) :
    connection.receiveMessage parse read = .threw := by
  simp only [TcpConnection.receiveMessage, h]

/-- Once the `int` has overflown, the next read throws. -/
theorem receiveMessage_overflow {full : Bytes} {length : ℕ} {read : Read}
    (hfrom : 2 ^ 31 ≤ length) (hto : length < 2 ^ 31 + maxMsgSize) :
    (⟨full, toInt32 length⟩ : TcpConnection).receiveMessage parse read = .threw := by
  have hread := read.length_le
  rw [maxMsgSize] at hread hto
  have hint : toInt32 length = length - 2 ^ 32 := by
    unfold toInt32
    omega
  have htotal : ¬ ((toInt32 length + read.rawMsg.length) % 2 ^ 64).toNat < 2 ^ 63 := by
    rw [hint]
    omega
  have hresize : resize (full ++ read.rawMsg)
      (((toInt32 length + read.rawMsg.length) % 2 ^ 64).toNat) = none := by
    rw [resize, if_neg htotal]
  exact receiveMessage_threw hresize

/-! ### A prefix -/

theorem length_contentLength : contentLength.length = 16 := rfl

theorem contentLength_ne_nil : contentLength ≠ [] := by decide

theorem crlf_ne_nil : crlf ≠ [] := List.cons_ne_nil 13 [10]

theorem goesOn_of_none (h : find m contentLength 0 = none) :
    goesOn (m.take cut) = some false := by
  simp only [goesOn, find_take contentLength_ne_nil, h, Option.filter_none]

theorem goesOn_of_lt (h : find m contentLength 0 = some name) (hcut : cut < name + 16) :
    goesOn (m.take cut) = some false := by
  have hout : ¬ name + contentLength.length ≤ cut := by
    rw [length_contentLength]
    omega
  simp only [goesOn, find_take contentLength_ne_nil, h, Option.filter_some, hout,
    decide_false, Bool.false_eq_true, if_false]

/-- In a prefix with the name, the end of the line is in front of the cut or not found. -/
theorem goesOn_of_le (h : find m contentLength 0 = some name)
    (hstop : find m crlf (name + 16) = some stop) (hname : name + 16 ≤ cut)
    (hcut : cut ≤ m.length) (hsize : cut < 2 ^ 63) :
    goesOn (m.take cut) = (stoi (numberText m name stop cut)).map fun n : ℤ =>
      decide (cut < ((if stop + 2 ≤ cut then n + stop + 2 else n + 1) % 2 ^ 64).toNat) := by
  have hin : name + contentLength.length ≤ cut := hname
  have hlength : (m.take cut).length = cut := List.length_take_of_le hcut
  have hend : find (m.take cut) crlf (name + 16) =
      if stop + 2 ≤ cut then some stop else none := by
    have hcrlf : crlf.length = 2 := rfl
    rw [find_take crlf_ne_nil, hstop, Option.filter_some]
    simp only [hcrlf, decide_eq_true_eq]
  have htext : ((m.take cut).drop (name + 16)).take
      ((if stop + 2 ≤ cut then stop else npos) - (name + 16)) = numberText m name stop cut := by
    rw [numberText, List.drop_take, List.take_take]
    congr 1
    unfold npos
    split_ifs <;> omega
  simp only [goesOn, find_take contentLength_ne_nil, h, Option.filter_some, hin, decide_true,
    if_true, hend, hlength]
  split_ifs at htext ⊢ with hline
  · simp only [Option.getD_some, htext]
  · simp only [Option.getD_none, htext]
    congr 1
    funext n
    have hwrap : (n + ((npos : ℕ) : ℤ) + 2) % 2 ^ 64 = (n + 1) % 2 ^ 64 := by
      unfold npos
      omega
    simp only [hwrap]

/-- The unsigned sum as a number: below zero it is larger than any text. -/
private theorem lt_toNat_emod_iff {v : ℤ} (hcut : cut < 2 ^ 63) (hfrom : -2 ^ 63 ≤ v)
    (hto : v < 2 ^ 64) : cut < (v % 2 ^ 64).toNat ↔ (cut : ℤ) < v ∨ v < 0 := by
  omega

theorem goesOn_iff (h : find m contentLength 0 = some name)
    (hstop : find m crlf (name + 16) = some stop) (hcut : cut ≤ m.length) (hint : cut < 2 ^ 31) :
    goesOn (m.take cut) = some true ↔ GoesOn m name stop cut := by
  rcases lt_or_ge cut (name + 16) with hlt | hname
  · rw [goesOn_of_lt h hlt]
    exact iff_of_false (by simp) fun hgoes => absurd hgoes.name_le (by omega)
  · rw [goesOn_of_le h hstop hname hcut (by omega), Option.map_eq_some_iff]
    have hsum : ∀ n, stoi (numberText m name stop cut) = some n →
        (decide (cut < ((if stop + 2 ≤ cut then n + stop + 2 else n + 1) % 2 ^ 64).toNat) = true ↔
          if stop + 2 ≤ cut then (cut : ℤ) < stop + 2 + n ∨ (stop : ℤ) + 2 + n < 0
          else (cut : ℤ) ≤ n ∨ n < -1) := by
      intro n hn
      have hbounds := stoi_bounds hn
      rw [decide_eq_true_eq]
      split_ifs with hline
      · rw [lt_toNat_emod_iff (by omega) (by omega) (by omega)]
        omega
      · rw [lt_toNat_emod_iff (by omega) (by omega) (by omega)]
        omega
    constructor
    · rintro ⟨n, hn, hlt⟩
      exact ⟨hname, hint, n, hn, (hsum n hn).mp hlt⟩
    · rintro ⟨-, -, n, hn, hlt⟩
      exact ⟨n, hn, (hsum n hn).mpr hlt⟩

theorem stops_iff (h : find m contentLength 0 = some name)
    (hstop : find m crlf (name + 16) = some stop) (hsize : m.length < 2 ^ 62) :
    goesOn m = some false ↔ Stops m name stop := by
  have hoccurs := ((find_eq_some_iff contentLength_ne_nil).mp h).1.2.le_length contentLength_ne_nil
  have hline := ((find_eq_some_iff crlf_ne_nil).mp hstop).1.2.le_length crlf_ne_nil
  have hgoes := goesOn_of_le h hstop hoccurs le_rfl (by omega)
  rw [List.take_length] at hgoes
  rw [hgoes, Option.map_eq_some_iff]
  change stop + 2 ≤ m.length at hline
  refine exists_congr fun n => and_congr_right fun hn => ?_
  have hbounds := stoi_bounds hn
  rw [decide_eq_false_iff_not, if_pos hline,
    lt_toNat_emod_iff (by omega) (by omega) (by omega)]
  omega

end Examine

/-! ### All reads -/

section Reads

variable {α : Type} {parse : Bytes → α} {m : Bytes} {reads : List Read}

/-- From a connection that has read a prefix: the reader goes on at every cut and stops at the
end. -/
theorem receive_eq_iff {full : Bytes} (hne : reads ≠ []) (hfull : full.length < 2 ^ 31)
    (hm : m = full ++ message reads) :
    (⟨full, full.length⟩ : TcpConnection).receive parse reads = some (parse m, []) ↔
      (∀ cut ∈ cuts full.length reads, goesOn (m.take cut) = some true ∧ cut < 2 ^ 31) ∧
        goesOn m = some false := by
  induction reads generalizing full with
  | nil => exact absurd rfl hne
  | cons read reads ih =>
    have hmessage : message (read :: reads) = read.rawMsg ++ message reads := List.flatMap_cons
    rw [hmessage, ← List.append_assoc] at hm
    cases reads with
    | nil =>
      -- the last read: the text is complete
      have hlast : m = full ++ read.rawMsg := hm.trans (List.append_nil _)
      simp only [TcpConnection.receive, receiveMessage_eq hfull, ← hlast, cuts,
        List.not_mem_nil, false_implies, implies_true, true_and]
      rcases goesOn m with _ | _ | _ <;> simp
    | cons next rest =>
      -- a cut behind this read
      have hread := read.length_le
      have htake : m.take (full ++ read.rawMsg).length = full ++ read.rawMsg := by
        rw [hm, List.take_left]
      have hcuts : cuts full.length (read :: next :: rest) =
          (full ++ read.rawMsg).length :: cuts (full ++ read.rawMsg).length (next :: rest) := by
        simp only [cuts, List.length_append]
      rw [hcuts, List.forall_mem_cons, htake, TcpConnection.receive, receiveMessage_eq hfull]
      rcases hgoes : goesOn (full ++ read.rawMsg) with _ | _ | _
      · exact iff_of_false (by simp) (by simp)
      · exact iff_of_false (by simp) (by simp)
      · rcases lt_or_ge (full ++ read.rawMsg).length (2 ^ 31) with hlt | hge
        · have hint : toInt32 (full ++ read.rawMsg).length = (full ++ read.rawMsg).length := by
            unfold toInt32
            omega
          dsimp only
          rw [hint, ih (List.cons_ne_nil _ _) hlt hm]
          simp only [hlt, and_self, true_and]
        · have hto : (full ++ read.rawMsg).length < 2 ^ 31 + maxMsgSize := by
            rw [List.length_append]
            omega
          dsimp only
          rw [TcpConnection.receive, receiveMessage_overflow hge hto]
          exact iff_of_false (by simp) fun h => absurd h.1.1.2 (Nat.not_lt.mpr hge)

/-- A text whose cuts the `int` can count is not much longer. -/
theorem length_message_lt {offset : ℕ} (hoffset : offset < 2 ^ 31)
    (hcuts : ∀ cut ∈ cuts offset reads, cut < 2 ^ 31) :
    offset + (message reads).length < 2 ^ 31 + maxMsgSize := by
  induction reads generalizing offset with
  | nil => exact Nat.lt_add_right _ hoffset
  | cons read reads ih =>
    have hread := read.length_le
    have hmessage : (message (read :: reads)).length =
        read.rawMsg.length + (message reads).length := by
      rw [message, List.flatMap_cons, List.length_append]
      rfl
    cases reads with
    | nil =>
      have hnil : (message []).length = 0 := rfl
      omega
    | cons next rest =>
      simp only [cuts, List.forall_mem_cons] at hcuts
      have htail := ih hcuts.1 hcuts.2
      omega

/-- A cut lies in front of the end. -/
theorem le_length_of_mem_cuts {offset cut : ℕ} (h : cut ∈ cuts offset reads) :
    cut ≤ offset + (message reads).length := by
  induction reads generalizing offset with
  | nil => exact absurd h List.not_mem_nil
  | cons read reads ih =>
    have hmessage : (message (read :: reads)).length =
        read.rawMsg.length + (message reads).length := by
      rw [message, List.flatMap_cons, List.length_append]
      rfl
    cases reads with
    | nil => exact absurd h List.not_mem_nil
    | cons next rest =>
      rcases List.mem_cons.mp h with rfl | hrest
      · omega
      · have htail := ih hrest
        omega

theorem text_ne_nil (request : Request) : request.text ≠ [] := by
  simp [Request.text, crlf]

/-- The header line with the length, and where it ends. -/
private theorem exists_line {request : Request} (hbody : request.body ≠ []) :
    ∃ before line rest, request.text = before ++ line ++ crlf ++ rest ∧
      contentLength <+: line := by
  have hlength := request.length_body
  have hpos := List.length_pos_iff.mpr hbody
  cases hfind : request.lines.findSome? declaredBy with
  | none =>
    rw [hfind, Option.getD_none] at hlength
    omega
  | some n =>
    obtain ⟨line, hline, hdeclared⟩ := List.exists_of_findSome?_eq_some hfind
    obtain ⟨front, back, hlines⟩ := List.append_of_mem hline
    unfold declaredBy at hdeclared
    dsimp only at hdeclared
    split_ifs at hdeclared with hprefix
    refine ⟨front.flatMap (· ++ crlf), line,
      back.flatMap (· ++ crlf) ++ crlf ++ request.body, ?_, hprefix.1⟩
    rw [Request.text, hlines, List.flatMap_append, List.flatMap_cons]
    simp only [List.append_assoc]

/-- In a request the line with the length ends somewhere. -/
theorem exists_stop (request : Request) {name : ℕ}
    (h : find request.text contentLength 0 = some name) :
    ∃ stop, find request.text crlf (name + 16) = some stop := by
  obtain ⟨⟨-, hoccurs⟩, hfirst⟩ := (find_eq_some_iff contentLength_ne_nil).mp h
  by_cases hbody : request.body = []
  · -- the empty line stands at the end, and the name does not reach into it
    have htext : request.text = request.lines.flatMap (· ++ crlf) ++ crlf ++ [] := by
      rw [Request.text, hbody]
    have hline : OccursAt crlf request.text (request.lines.flatMap (· ++ crlf)).length := by
      rw [htext]
      exact occursAt_append
    refine exists_find crlf_ne_nil ?_ hline
    have hend := hoccurs.le_length contentLength_ne_nil
    have hlength : request.text.length = (request.lines.flatMap (· ++ crlf)).length + 2 := by
      rw [htext, List.append_nil, List.length_append]
      rfl
    have hcr : (13 : UInt8) ∉ contentLength := by decide
    by_contra hover
    refine hcr (mem_of_occursAt hoccurs hline ?_ ?_)
    · rw [length_contentLength] at hend
      omega
    · rw [length_contentLength]
      omega
  · obtain ⟨before, line, rest, htext, hprefix⟩ := exists_line hbody
    have hname : OccursAt contentLength request.text before.length := by
      rw [OccursAt, htext, List.append_assoc, List.append_assoc, List.drop_left]
      exact hprefix.trans (List.prefix_append ..)
    have hle : name ≤ before.length :=
      Nat.not_lt.mp fun hlt => hfirst _ hlt (Nat.zero_le _) hname
    have hline : OccursAt crlf request.text (before ++ line).length := by
      rw [htext]
      exact occursAt_append
    refine exists_find crlf_ne_nil ?_ hline
    have hlength := hprefix.length_le
    rw [length_contentLength] at hlength
    rw [List.length_append]
    omega

/-- **Where a request may be cut.** For every request and every way of dividing it into reads:
there is exactly one result, after the last read, and it is that of the whole request, if and
only if the request stops where its header says and every cut is one behind which the reader
goes on. -/
theorem framed_iff (parse : Bytes → α) (request : Request) (reads : List Read)
    (hreads : message reads = request.text) : Framed parse reads ↔ WellCut reads := by
  have hne : reads ≠ [] := by
    rintro rfl
    exact text_ne_nil request hreads.symm
  have hreceive : Framed parse reads ↔
      (∀ cut ∈ cuts 0 reads, goesOn ((message reads).take cut) = some true ∧ cut < 2 ^ 31) ∧
        goesOn (message reads) = some false :=
    receive_eq_iff hne (Nat.two_pow_pos 31) rfl
  rw [hreceive, WellCut]
  have hwhole : goesOn (message reads) = goesOn ((message reads).take (message reads).length) := by
    rw [List.take_length]
  cases hfind : find (message reads) contentLength 0 with
  | none =>
    -- no length: the first read ends it
    have hfalse : ∀ cut, goesOn ((message reads).take cut) = some false :=
      fun cut => goesOn_of_none hfind
    simp only [hwhole, hfalse, and_true, List.eq_nil_iff_forall_not_mem]
    exact forall₂_congr fun cut _ => iff_of_false (by simp) not_false
  | some name =>
    have hname : find request.text contentLength 0 = some name := hreads ▸ hfind
    obtain ⟨stop, hstop⟩ := exists_stop request hname
    rw [← hreads] at hstop
    have hcut : ∀ cut ∈ cuts 0 reads, cut ≤ (message reads).length := by
      intro cut hmem
      have hle := le_length_of_mem_cuts hmem
      rwa [Nat.zero_add] at hle
    have hgoes : ∀ cut ∈ cuts 0 reads,
        goesOn ((message reads).take cut) = some true ∧ cut < 2 ^ 31 ↔
          GoesOn (message reads) name stop cut := by
      intro cut hmem
      constructor
      · rintro ⟨hgoes, hint⟩
        exact (goesOn_iff hfind hstop (hcut cut hmem) hint).mp hgoes
      · intro hgoes
        exact ⟨(goesOn_iff hfind hstop (hcut cut hmem) hgoes.int).mpr hgoes, hgoes.int⟩
    have hsize : (∀ cut ∈ cuts 0 reads, GoesOn (message reads) name stop cut) →
        (message reads).length < 2 ^ 62 := by
      intro h
      have hlt := length_message_lt (Nat.two_pow_pos 31) fun cut hmem => (h cut hmem).int
      rw [maxMsgSize] at hlt
      omega
    calc (∀ cut ∈ cuts 0 reads, goesOn ((message reads).take cut) = some true ∧ cut < 2 ^ 31) ∧
            goesOn (message reads) = some false
      _ ↔ (∀ cut ∈ cuts 0 reads, GoesOn (message reads) name stop cut) ∧
            goesOn (message reads) = some false := and_congr_left' (forall₂_congr hgoes)
      _ ↔ (∀ cut ∈ cuts 0 reads, GoesOn (message reads) name stop cut) ∧
            Stops (message reads) name stop :=
          and_congr_right fun h => stops_iff hfind hstop (hsize h)
      _ ↔ _ := by
        constructor
        · exact fun h => ⟨stop, hstop, h⟩
        · rintro ⟨stop', hstop', h⟩
          rw [hstop] at hstop'
          exact Option.some.inj hstop' ▸ h

/-! The parser only sees what the reader hands on. -/

/-- A result, parsed. -/
def Received.map (parse : Bytes → α) : Received Bytes → Received α
  | .more connection => .more connection
  | .parsed msg => .parsed (parse msg)
  | .threw => .threw

theorem receiveMessage_map (parse : Bytes → α) (connection : TcpConnection) (read : Read) :
    connection.receiveMessage parse read = (connection.receiveMessage id read).map parse := by
  simp only [TcpConnection.receiveMessage]
  split
  · rfl
  · split
    · rfl
    · split
      · rfl
      · split_ifs <;> rfl

theorem receive_map (parse : Bytes → α) (connection : TcpConnection) (reads : List Read) :
    connection.receive parse reads =
      (connection.receive id reads).map fun (msg, rest) => (parse msg, rest) := by
  induction reads generalizing connection with
  | nil => rfl
  | cons read reads ih =>
    rw [TcpConnection.receive, TcpConnection.receive, receiveMessage_map]
    cases connection.receiveMessage id read with
    | more connection => exact ih connection
    | parsed msg => rfl
    | threw => rfl

/-! ### A request in two reads -/

/-- An ANNOUNCE with a body of four bytes. -/
def announceRequest : Request where
  lines := [ascii "ANNOUNCE streamid=control/13/0 RTSP/1.0", ascii "CSeq: 6",
    ascii "Content-length: 4"]
  body := ascii "v=0\n"
  lines_ok := by decide
  length_body := by decide +kernel

/-- A short text in two reads. -/
def twoReads (m : Bytes) (cut : ℕ) (hcut : 0 < cut ∧ cut < m.length)
    (hm : m.length ≤ maxMsgSize) : List Read :=
  [{ rawMsg := m.take cut
     ne_nil := List.ne_nil_of_length_pos (by rw [List.length_take]; omega)
     length_le := (List.length_take_le' ..).trans hm },
   { rawMsg := m.drop cut
     ne_nil := List.ne_nil_of_length_pos (by rw [List.length_drop]; omega)
     length_le := by rw [List.length_drop]; omega }]

theorem message_twoReads (cut : ℕ) (hcut : 0 < cut ∧ cut < m.length)
    (hm : m.length ≤ maxMsgSize) : message (twoReads m cut hcut hm) = m := by
  simp only [message, twoReads, List.flatMap_cons, List.flatMap_nil, List.append_nil,
    List.take_append_drop]

theorem length_announce : announceRequest.text.length = 75 := by decide +kernel

/-- It arrives in two pieces, of which the first is this long. -/
def announceReads (cut : ℕ) (hcut : 0 < cut ∧ cut < 75) : List Read :=
  twoReads announceRequest.text cut (length_announce.symm ▸ hcut)
    (length_announce.trans_le (by decide))

theorem message_announceReads (cut : ℕ) (hcut : 0 < cut ∧ cut < 75) :
    message (announceReads cut hcut) = announceRequest.text :=
  message_twoReads ..

/-- Cut in front of the body it is put together again. -/
theorem framed_announce :
    Framed id (announceReads 71 (by omega)) ∧ WellCut (announceReads 71 (by omega)) := by
  have hframed : Framed id (announceReads 71 (by omega)) := by
    unfold Framed
    decide +kernel
  exact ⟨hframed, (framed_iff id announceRequest _ (message_announceReads ..)).mp hframed⟩

/-- Two bytes in front of the end of the body it is not: the sum leaves out the empty line, so
the reader takes the request to be complete, and parses it without these bytes. -/
theorem not_framed_announce :
    ∃ (request : Request) (reads : List Read), message reads = request.text ∧
      (({} : TcpConnection).receive id reads).map Prod.fst =
        some (request.text.take (request.text.length - 2)) ∧
      ∀ parse : Bytes → Bytes, ¬ Framed parse reads := by
  refine ⟨announceRequest, announceReads 73 (by omega), message_announceReads ..,
    by decide +kernel, fun parse hframed => ?_⟩
  have hleft : (({} : TcpConnection).receive id (announceReads 73 (by omega))).map
      (fun result => result.2.length) = some 1 := by decide +kernel
  rw [Framed, receive_map, Option.map_eq_some_iff] at hframed
  obtain ⟨⟨msg, rest⟩, hreceive, hresult⟩ := hframed
  rw [hreceive] at hleft
  obtain ⟨-, rfl⟩ := Prod.mk.inj hresult
  cases hleft

end Reads

end SteamStream.Rtsp
