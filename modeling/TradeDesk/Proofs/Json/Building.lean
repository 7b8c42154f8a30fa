import TradeDesk.Json.Document

/-!
# Documents are built from their tokens

The tokens of a document, fed to a builder that awaits a value, supply that document to it, under
whatever containers are open.
-/

namespace TradeDesk.Json

namespace Document

mutual

/-- The tokens of a document. -/
def tokens : Document → List Token
  | null => [.null]
  | bool b => [.bool b]
  | number n => [.number n]
  | text s => [.text s]
  | array items => .arrayOpen :: (itemTokens items ++ [.arrayClose])
  | object members => .objectOpen :: (memberTokens members ++ [.objectClose])

/-- Items with commas between them. -/
def itemTokens : List Document → List Token
  | [] => []
  | [d] => tokens d
  | d :: rest => tokens d ++ .comma :: itemTokens rest

/-- Members with commas between them. -/
def memberTokens : List (Option String × Document) → List Token
  | [] => []
  | [(k, d)] => .text k :: .colon :: tokens d
  | (k, d) :: rest => .text k :: .colon :: tokens d ++ .comma :: memberTokens rest

end

end Document

namespace Builder

variable {b b' : Builder} {frames : List Frame} {members : List (Option String × Document)}
  {t : Token} {ts ts' : List Token}

theorem foldlM_cons_of_feed (h : b.feed t = some b') :
    (t :: ts).foldlM feed b = ts.foldlM feed b' := by
  rw [List.foldlM_cons, h]
  rfl

theorem foldlM_append_of_foldlM (h : ts.foldlM feed b = some b') :
    (ts ++ ts').foldlM feed b = ts'.foldlM feed b' := by
  rw [List.foldlM_append, h]
  rfl

/-- A builder for which a value may come next, under open containers. -/
inductive Awaits : Builder → List Frame → Prop
  | value (frames : List Frame) : Awaits (.value frames) frames
  | firstItem (frames : List Frame) : Awaits (.firstItem frames) (.array [] :: frames)

/-- A builder for which a key may come next, in an object that holds members. -/
inductive AwaitsKey : Builder → List (Option String × Document) → List Frame → Prop
  | firstKey (frames : List Frame) : AwaitsKey (.firstKey frames) [] frames
  | key (members : List (Option String × Document)) (frames : List Frame) :
    AwaitsKey (.key members frames) members frames

theorem Awaits.feed (h : b.Awaits frames) (ht : t ≠ .arrayClose) : b.feed t = start frames t := by
  cases h with
  | value => rfl
  | firstItem frames =>
    cases t with
    | arrayClose => exact absurd rfl ht
    | _ => rfl

theorem AwaitsKey.feed (h : b.AwaitsKey members frames) (k : Option String) :
    b.feed (.text k) = some (.colon members k frames) := by
  cases h <;> rfl

mutual

/-- The tokens of a document supply it. -/
theorem foldlM_tokens (d : Document) {b : Builder} {frames : List Frame} (h : b.Awaits frames) :
    d.tokens.foldlM feed b = some (supply d frames) := by
  cases d with
  | null => exact foldlM_cons_of_feed (h.feed (t := .null) nofun)
  | bool v => exact foldlM_cons_of_feed (h.feed (t := .bool v) nofun)
  | number n => exact foldlM_cons_of_feed (h.feed (t := .number n) nofun)
  | text s => exact foldlM_cons_of_feed (h.feed (t := .text s) nofun)
  | array items =>
    have hopen : b.feed .arrayOpen = some (.firstItem frames) := h.feed nofun
    rw [Document.tokens, foldlM_cons_of_feed hopen]
    cases items with
    | nil => rfl
    | cons d rest =>
      rw [foldlM_append_of_foldlM
        (foldlM_itemTokens (d :: rest) (List.cons_ne_nil d rest) (.firstItem frames)),
        List.append_nil, List.foldlM_cons, feed, List.reverse_reverse]
      rfl
  | object members =>
    have hopen : b.feed .objectOpen = some (.firstKey frames) := h.feed nofun
    rw [Document.tokens, foldlM_cons_of_feed hopen]
    cases members with
    | nil => rfl
    | cons m rest =>
      rw [foldlM_append_of_foldlM
        (foldlM_memberTokens (m :: rest) (List.cons_ne_nil m rest) (.firstKey frames)),
        List.append_nil, List.foldlM_cons, feed, List.reverse_reverse]
      rfl

/-- The tokens of items put them behind those that are there. -/
theorem foldlM_itemTokens (more : List Document) (hne : more ≠ []) {b : Builder}
    {items : List Document} {frames : List Frame} (h : b.Awaits (.array items :: frames)) :
    (Document.itemTokens more).foldlM feed b =
      some (.afterItem (more.reverse ++ items) frames) := by
  cases more with
  | nil => exact absurd rfl hne
  | cons d rest =>
    have hfirst : d.tokens.foldlM feed b = some (.afterItem (d :: items) frames) :=
      foldlM_tokens d h
    cases rest with
    | nil => exact hfirst
    | cons d' rest =>
      have hcomma : feed (.afterItem (d :: items) frames) .comma =
        some (.value (.array (d :: items) :: frames)) := rfl
      rw [Document.itemTokens, foldlM_append_of_foldlM hfirst, foldlM_cons_of_feed hcomma,
        foldlM_itemTokens (d' :: rest) (List.cons_ne_nil d' rest) (.value _)]
      · simp
      · exact nofun

/-- The tokens of members put them behind those that are there. -/
theorem foldlM_memberTokens (more : List (Option String × Document)) (hne : more ≠ [])
    {b : Builder} {members : List (Option String × Document)} {frames : List Frame}
    (h : b.AwaitsKey members frames) :
    (Document.memberTokens more).foldlM feed b =
      some (.afterMember (more.reverse ++ members) frames) := by
  cases more with
  | nil => exact absurd rfl hne
  | cons m rest =>
    obtain ⟨k, d⟩ := m
    have hkey := h.feed k
    have hcolon : feed (.colon members k frames) .colon =
      some (.value (.object members k :: frames)) := rfl
    have hfirst : d.tokens.foldlM feed (.value (.object members k :: frames)) =
      some (.afterMember ((k, d) :: members) frames) := foldlM_tokens d (.value _)
    cases rest with
    | nil =>
      rw [Document.memberTokens, foldlM_cons_of_feed hkey, foldlM_cons_of_feed hcolon]
      exact hfirst
    | cons m' rest =>
      have hcomma : feed (.afterMember ((k, d) :: members) frames) .comma =
        some (.key ((k, d) :: members) frames) := rfl
      rw [Document.memberTokens, List.cons_append, List.cons_append, foldlM_cons_of_feed hkey,
        foldlM_cons_of_feed hcolon, foldlM_append_of_foldlM hfirst, foldlM_cons_of_feed hcomma,
        foldlM_memberTokens (m' :: rest) (List.cons_ne_nil m' rest) (.key _ _)]
      · simp
      · exact nofun

end

end Builder

/-- The tokens of a document make it. -/
theorem Document.ofTokens?_tokens (d : Document) : ofTokens? d.tokens = some d := by
  rw [ofTokens?, Builder.foldlM_tokens d (.value [])]
  rfl

end TradeDesk.Json
