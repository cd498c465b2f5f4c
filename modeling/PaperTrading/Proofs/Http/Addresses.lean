import Mathlib.Tactic.IntervalCases
import PaperTrading.Http.Service
import PaperTrading.Proofs.Text.Utf8

/-!
# Addresses of sessions

A request is about one session if the session's identifier is a segment of its path.  A client
escapes the identifier, so that the service decodes the path to it again; it can be a segment only
if it has no slash in it.

* `Access`: what can be asked about one session, with its method, its path and its address.
* `percentEncode`, `percentDecode_address`: **an address is decoded to the path.**
* `ofPath_path`: **the path of an identifier without slashes** leads to the endpoint of the session.
* `ofPath_path_of_slash`: that of an identifier with a slash leads nowhere, if the identifier ends
  with a digit.
-/

namespace PaperTrading.Http

open PaperTrading.Text (utf8Bytes utf8Bytes_append ofUtf8_utf8Bytes)

/-! ### Escaping -/

/-- The escape of a byte. -/
def percentByte (b : Nat) : List Char := ['%', Nat.digitChar (b / 16), Nat.digitChar (b % 16)]

/-- **A text with every byte escaped.** -/
def percentEncode (s : String) : String :=
  String.ofList ((utf8Bytes s.toList).flatMap percentByte)

theorem hexDigit?_digitChar {n : Nat} (h : n < 16) : Json.hexDigit? (Nat.digitChar n) = some n := by
  interval_cases n <;> decide

theorem bytes_percentByte {b : Nat} (h : b < 256) (cs : List Char) :
    bytes (percentByte b ++ cs) = b :: bytes cs := by
  have hhigh : b / 16 < 16 := by omega
  have hlow : b % 16 < 16 := by omega
  have hb : 16 * (b / 16) + b % 16 = b := by omega
  show bytes ('%' :: Nat.digitChar (b / 16) :: Nat.digitChar (b % 16) :: cs) = _
  simp only [bytes, hexDigit?_digitChar hhigh, hexDigit?_digitChar hlow, hb]

theorem bytes_percentBytes {bs : List Nat} (h : ∀ b ∈ bs, b < 256) (cs : List Char) :
    bytes (bs.flatMap percentByte ++ cs) = bs ++ bytes cs := by
  induction bs with
  | nil => rfl
  | cons b bs ih =>
    rw [List.flatMap_cons, List.append_assoc, bytes_percentByte (h b List.mem_cons_self),
      ih fun c hc => h c (List.mem_cons_of_mem _ hc), List.cons_append]

/-- What has no percent sign in it stands for itself. -/
theorem bytes_append_of_plain {cs : List Char} (h : '%' ∉ cs) (ds : List Char) :
    bytes (cs ++ ds) = utf8Bytes cs ++ bytes ds := by
  induction cs with
  | nil => rfl
  | cons c cs ih =>
    obtain ⟨hc, hcs⟩ := not_or.mp (List.mem_cons.not.mp h)
    have hsplit : utf8Bytes (c :: cs) = utf8Bytes [c] ++ utf8Bytes cs :=
      utf8Bytes_append [c] cs
    rw [hsplit, List.append_assoc, ← ih hcs]
    show bytes (c :: (cs ++ ds)) = _
    rw [bytes]
    intro a b cs' hcs
    cases hcs
    exact absurd rfl hc

theorem lt_of_mem_utf8Bytes {cs : List Char} {b : Nat} (h : b ∈ utf8Bytes cs) : b < 256 := by
  obtain ⟨c, -, hb⟩ := List.mem_flatMap.mp h
  obtain ⟨u, -, rfl⟩ := List.mem_map.mp hb
  exact u.toNat_lt

/-- **What stands before and after an escaped text** is kept when the text is decoded. -/
theorem percentDecode_around {before after : List Char} (hb : '%' ∉ before) (ha : '%' ∉ after)
    (s : String) :
    percentDecode (before ++ (percentEncode s).toList ++ after) = before ++ s.toList ++ after := by
  have hafter : bytes after = utf8Bytes after := by
    have := bytes_append_of_plain ha []
    rw [List.append_nil] at this
    rw [this]
    exact List.append_nil _
  unfold percentDecode percentEncode
  rw [List.append_assoc, bytes_append_of_plain hb, String.toList_ofList,
    bytes_percentBytes fun b h => lt_of_mem_utf8Bytes h, hafter, ← utf8Bytes_append,
    ← utf8Bytes_append, ofUtf8_utf8Bytes, List.append_assoc]

/-! ### What can be asked -/

/-- **What can be asked about one session:** to show it, to stop it, to update it with some market
data, or to remove it. -/
inductive Access (α : Type) where
  | view
  | stop
  | update (data : Value α)
  | remove

namespace Access

variable {α : Type}

def method : Access α → String
  | view => "GET"
  | stop | update _ => "PUT"
  | remove => "DELETE"

/-- The segment that follows the identifier in a path. -/
def verb? : Access α → Option String
  | view | remove => none
  | stop => some "stop"
  | update _ => some "update"

/-- A path with what stands for the identifier in it. -/
def pathWith (a : Access α) (segment : String) : String :=
  "/paper-trading/" ++ segment ++ a.verb?.elim "" ("/" ++ ·)

/-- The path of a session. -/
def path (a : Access α) (id : String) : String := a.pathWith id

/-- **The address of a session:** its path with the identifier escaped. -/
def address (a : Access α) (id : String) : String := a.pathWith (percentEncode id)

def endpoint (a : Access α) (id : String) : Endpoint :=
  match a with
  | view | remove => .session id
  | stop => .stop id
  | update _ => .update id

theorem method_mem (a : Access α) (id : String) :
    (a.endpoint id).methods.contains a.method = true := by
  cases a <;> rfl

/-- **An address is decoded to the path.** -/
theorem percentDecode_address (a : Access α) (id : String) :
    percentDecode (a.address id).toList = (a.path id).toList := by
  have hstop : '%' ∉ ("/" ++ "stop").toList := by decide +kernel
  have hupdate : '%' ∉ ("/" ++ "update").toList := by decide +kernel
  have hverb : '%' ∉ (a.verb?.elim "" ("/" ++ ·)).toList := by
    cases a with
    | view | remove => exact List.not_mem_nil
    | stop => exact hstop
    | update _ => exact hupdate
  unfold address path pathWith
  simp only [String.toList_append]
  exact percentDecode_around (by decide +kernel) hverb id

end Access

/-! ### Paths with one segment -/

open Endpoint

theorem segments_append (cs ds : List Char) :
    segments (cs ++ '/' :: ds) = segments cs ++ segments ds := by
  unfold segments
  rw [List.splitOn_append_cons_self, List.map_append]

theorem segments_of_not_mem {cs : List Char} (h : '/' ∉ cs) : segments cs = [String.ofList cs] := by
  unfold segments
  rw [List.splitOn_eq_singleton h, List.map_singleton]

theorem segments_ne_nil (cs : List Char) : segments cs ≠ [] := by
  unfold segments
  simp

/-- The segments of the path of a session are those of its identifier, among those that are the same
for all. -/
theorem segments_path {α : Type} (a : Access α) (id : String) :
    segments (a.path id).toList =
      "" :: "paper-trading" :: (segments id.toList ++ a.verb?.toList) := by
  have hstart : "/paper-trading/".toList = "/paper-trading".toList ++ ['/'] := by decide +kernel
  have hsegments : segments "/paper-trading".toList = ["", "paper-trading"] := by decide +kernel
  have hverb : segments (id.toList ++ (a.verb?.elim "" ("/" ++ ·)).toList) =
      segments id.toList ++ a.verb?.toList := by
    cases a with
    | view | remove => simp [Access.verb?]
    | stop =>
      have hstop : ("/" ++ "stop").toList = '/' :: "stop".toList := by decide +kernel
      have hlast : segments "stop".toList = ["stop"] := by decide +kernel
      show segments (id.toList ++ ("/" ++ "stop").toList) = _ ++ ["stop"]
      rw [hstop, segments_append, hlast]
    | update _ =>
      have hupdate : ("/" ++ "update").toList = '/' :: "update".toList := by decide +kernel
      have hlast : segments "update".toList = ["update"] := by decide +kernel
      show segments (id.toList ++ ("/" ++ "update").toList) = _ ++ ["update"]
      rw [hupdate, segments_append, hlast]
  unfold Access.path Access.pathWith
  rw [String.toList_append, String.toList_append, hstart, List.append_assoc, List.append_assoc,
    List.singleton_append, segments_append, hsegments, hverb]
  rfl

/-- **The path of an identifier without slashes** leads to the endpoint of the session. -/
theorem ofPath_path {α : Type} (a : Access α) {id : String} (hne : id ≠ "")
    (hslash : '/' ∉ id.toList) : Route.ofPath (a.path id).toList = .known (a.endpoint id) := by
  have hsegments : ofSegments? (segments (a.path id).toList) = some (a.endpoint id) := by
    rw [segments_path, segments_of_not_mem hslash, String.ofList_toList]
    cases a <;> simp [ofSegments?, Access.endpoint, Access.verb?, hne]
  unfold Route.ofPath ofPath?
  rw [hsegments]
  rfl

/-! ### Paths with more segments -/

/-- No path of five segments or more is known. -/
theorem ofSegments?_of_length {ss : List String} (h : 5 ≤ ss.length) : ofSegments? ss = none := by
  unfold ofSegments?
  split <;> first | rfl | simp at h

/-- A path of four segments is known only for its last one. -/
theorem ofSegments?_of_four {s t : String} (hupdate : t ≠ "update") (hstop : t ≠ "stop") :
    ofSegments? ["", "paper-trading", s, t] = none := by
  unfold ofSegments?
  split <;> simp_all

/-- A path that ends with neither a slash nor a line feed is known as it stands or not at all. -/
theorem ofPath_of_getLast {path : List Char} {c : Char} (hlast : path.getLast? = some c)
    (hslash : c ≠ '/') (hfeed : c ≠ '\n') (hnone : ofSegments? (segments path) = none) :
    Route.ofPath path = .unknown := by
  have hwhole : withoutLineFeed path = path := by
    unfold withoutLineFeed
    rw [hlast, if_neg]
    simpa using hfeed
  have hsame : withoutSlashes path = path := by
    obtain ⟨cs, rfl⟩ := List.getLast?_eq_some_iff.mp hlast
    unfold withoutSlashes
    rw [List.reverse_append, List.reverse_singleton, List.singleton_append,
      List.dropWhile_cons_of_neg (by simpa using hslash)]
    simp
  have hpath : ofPath? path = none := by
    unfold ofPath?
    rw [hwhole, hnone]
    rfl
  unfold Route.ofPath
  rw [hsame, hpath]
  rfl

/-- A path ends as the identifier does, or as its verb does. -/
theorem getLast?_path {α : Type} (a : Access α) {id : String} {c : Char}
    (hlast : id.toList.getLast? = some c) :
    (a.path id).toList.getLast? = some (match a with
      | .view | .remove => c
      | .stop => 'p'
      | .update _ => 'e') := by
  have hstop : ("/" ++ "stop").toList.getLast? = some 'p' := by decide +kernel
  have hupdate : ("/" ++ "update").toList.getLast? = some 'e' := by decide +kernel
  unfold Access.path Access.pathWith
  rw [String.toList_append, String.toList_append, List.getLast?_append, List.getLast?_append, hlast]
  cases a with
  | view | remove => rfl
  | stop => exact congrArg (Option.or · _) hstop
  | update _ => exact congrArg (Option.or · _) hupdate

/-- **The path of an identifier with a slash** leads nowhere, if the identifier ends with a digit. -/
theorem ofPath_path_of_slash {α : Type} (a : Access α) {id : String} {c : Char}
    (hslash : '/' ∈ id.toList) (hlast : id.toList.getLast? = some c) (hdigit : c.isDigit = true) :
    Route.ofPath (a.path id).toList = .unknown := by
  have hne : ∀ c' : Char, c'.isDigit = false → c ≠ c' := fun c' h hc => by
    rw [hc, h] at hdigit; cases hdigit
  -- what stands behind the last slash is a segment of its own
  obtain ⟨after, before, hreverse, hafter⟩ :=
    List.eq_append_cons_of_mem (List.mem_reverse.mpr hslash)
  have hid : id.toList = before.reverse ++ '/' :: after.reverse := by
    rw [← List.reverse_reverse id.toList, hreverse]
    simp
  have hsegments : segments id.toList =
      segments before.reverse ++ [String.ofList after.reverse] := by
    rw [hid, segments_append, segments_of_not_mem fun h => hafter (List.mem_reverse.mp h)]
  have hend : ∀ verb : String, verb.toList.getLast?.any (!·.isDigit) = true →
      String.ofList after.reverse ≠ verb := fun verb hverb h => by
    obtain ⟨c', hc', hnot⟩ := (Option.any_eq_true _ _).mp hverb
    have htail : after.reverse = verb.toList := by rw [← h, String.toList_ofList]
    rw [hid, htail, List.getLast?_append, List.getLast?_cons, hc'] at hlast
    exact hne c' (by simpa using hnot) (Option.some.inj hlast).symm
  refine ofPath_of_getLast (getLast?_path a hlast) ?_ ?_ ?_
  · cases a with
    | view | remove => exact hne '/' rfl
    | stop => exact (by decide : 'p' ≠ '/')
    | update _ => exact (by decide : 'e' ≠ '/')
  · cases a with
    | view | remove => exact hne '\n' rfl
    | stop => exact (by decide : 'p' ≠ '\n')
    | update _ => exact (by decide : 'e' ≠ '\n')
  · rw [segments_path, hsegments]
    obtain ⟨s, ss, hss⟩ := List.exists_cons_of_ne_nil (segments_ne_nil before.reverse)
    rw [hss]
    cases a with
    | stop | update _ => exact ofSegments?_of_length (by simp [Access.verb?])
    | view | remove =>
      cases ss with
      | cons => exact ofSegments?_of_length (by simp [Access.verb?])
      | nil => exact ofSegments?_of_four (hend _ (by decide +kernel)) (hend _ (by decide +kernel))

end PaperTrading.Http
