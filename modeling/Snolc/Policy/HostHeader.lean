import Snolc.Policy.Sniff

/-! Which of several Host headers decides what a request is taken for. -/

namespace Snolc.Policy

def hostValue (line : String) : Option String := do
  let (name, value) ← splitOnce ':' line
  if eqIgnoreAsciiCase name "host" then some (trimBlanks value) else none

def requestHead (input : Bytes) : Option (String × List String) := do
  let stop ← position [13, 10, 13, 10] input
  let header ← fromUtf8 (input.take (stop + 4))
  match headerLines [] header.toList with
  | [] => none
  | request :: lines => some (request, lines)

def hostValues (lines : List String) : List String :=
  lines.filterMap hostValue

theorem hostOfLine_eq (line : String) : hostOfLine line = (hostValue line).bind normalizeHost := by
  unfold hostOfLine hostValue
  cases splitOnce ':' line with
  | none => rfl
  | some parts =>
    obtain ⟨name, value⟩ := parts
    simp only [Option.bind_eq_bind, Option.bind_some]
    split <;> rfl

theorem findSome_hostOfLine (lines : List String) :
    lines.findSome? hostOfLine = (hostValues lines).findSome? normalizeHost := by
  induction lines with
  | nil => rfl
  | cons line lines ih =>
    rw [List.findSome?_cons, hostOfLine_eq, hostValues, List.filterMap_cons]
    -- Lines that are no Host headers name no host either.
    cases hostValue line with
    | none => exact ih
    | some value =>
      rw [Option.bind_some, List.findSome?_cons]
      cases normalizeHost value with
      | none => exact ih
      | some => rfl

theorem classifyHttp_accepted {input : Bytes} {complete : Bool} {host : Option String}
    (accepted : classifyHttp input complete = .complete (.http host)) :
    ∃ request lines, requestHead input = some (request, lines) ∧
      host = (hostValues lines).findSome? normalizeHost := by
  unfold classifyHttp at accepted
  unfold requestHead
  cases found : position [13, 10, 13, 10] input with
  | none =>
    -- Without the empty line the head is not complete.
    rw [found] at accepted
    cases complete <;> simp [incomplete] at accepted
  | some stop =>
    simp only [found] at accepted
    simp only [Option.bind_eq_bind, Option.bind_some]
    cases text : fromUtf8 (input.take (stop + 4)) with
    | none => simp [text] at accepted
    | some header =>
      simp only [text] at accepted
      simp only [Option.bind_some]
      cases split : headerLines [] header.toList with
      | nil => simp [split] at accepted
      | cons request lines =>
        simp only [split] at accepted
        split at accepted
        · simp only [Classification.complete.injEq, Observed.http.injEq] at accepted
          exact ⟨request, lines, rfl, by rw [← accepted, findSome_hostOfLine]⟩
        · simp at accepted

theorem findSome_eq_head {α β : Type} (usable : α → Option β) (values : List α) :
    values.findSome? usable = values.head?.bind usable ↔
      ∀ first rest, values = first :: rest →
        (usable first).isSome = true ∨ ∀ value ∈ rest, usable value = none := by
  cases values with
  | nil => simp
  | cons first rest =>
    rw [List.findSome?_cons, List.head?_cons, Option.bind_some]
    cases here : usable first with
    | some => simp [here]
    | none =>
      -- The first value is no use, so what is reported comes from the rest, if from anywhere.
      simp only [List.findSome?_eq_none_iff, List.cons.injEq]
      constructor
      · rintro none other more ⟨rfl, rfl⟩
        exact .inr none
      · intro either
        have cases := either first rest ⟨rfl, rfl⟩
        simpa [here] using cases

/--
The host of an accepted request is that of its first Host header exactly when that header has a
usable value or no later one has.
-/
theorem sniffedHost_first {input : Bytes} {complete : Bool} {host : Option String}
    (accepted : classifyHttp input complete = .complete (.http host)) :
    ∃ request lines, requestHead input = some (request, lines) ∧
      (host = (hostValues lines).head?.bind normalizeHost ↔
        ∀ first rest, hostValues lines = first :: rest →
          (normalizeHost first).isSome = true ∨ ∀ value ∈ rest, normalizeHost value = none) := by
  obtain ⟨request, lines, head, reported⟩ := classifyHttp_accepted accepted
  refine ⟨request, lines, head, ?_⟩
  rw [reported]
  exact findSome_eq_head normalizeHost (hostValues lines)

/-- A request with two Host headers of which the first is usable. -/
def twoHosts : Bytes :=
  toUtf8 "GET / HTTP/1.1\r\nHost: example.com:80\r\nHost: other.example\r\n\r\n"

/-- A request with two Host headers of which only the second is usable. -/
def spoiledHost : Bytes :=
  toUtf8 "GET / HTTP/1.1\r\nHost: bad_host\r\nHost: example.com\r\n\r\n"

/-- The first of two usable headers decides. -/
theorem sniffedHost_first_usable :
    classifyHttp twoHosts true = .complete (.http (some "example.com")) ∧
      ∃ request lines, requestHead twoHosts = some (request, lines) ∧
        (some "example.com" = (hostValues lines).head?.bind normalizeHost ↔
          ∀ first rest, hostValues lines = first :: rest →
            (normalizeHost first).isSome = true ∨
              ∀ value ∈ rest, normalizeHost value = none) := by
  have accepted : classifyHttp twoHosts true = .complete (.http (some "example.com")) := by
    decide +kernel
  exact ⟨accepted, sniffedHost_first accepted⟩

/-- A second header is reported although the first one is there. -/
theorem sniffedHost_second :
    classifyHttp spoiledHost true = .complete (.http (some "example.com")) ∧
      requestHead spoiledHost = some ("GET / HTTP/1.1",
        ["Host: bad_host", "Host: example.com", "", ""]) ∧
      hostValues ["Host: bad_host", "Host: example.com", "", ""] = ["bad_host", "example.com"] ∧
      normalizeHost "bad_host" = none := by
  decide +kernel

end Snolc.Policy
