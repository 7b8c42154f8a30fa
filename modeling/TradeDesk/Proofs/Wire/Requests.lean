import TradeDesk.Proofs.Wire.Layouts

/-!
# Records of requests

Every record that the desk asks a venue with is read back from its members in any order: the names
of the instrument are found among the other fields wherever they stand.
-/

namespace TradeDesk

open Json

namespace MoneyQuery

def members (q : MoneyQuery) : List (String × Value) := [("exchange", Codec.write q.exchange)]

theorem carries (q : MoneyQuery) : Carries q q.members :=
  .ofRecord fits (by decide) rfl rfl (List.forall_mem_singleton.mpr (Value.plain_text _))

end MoneyQuery

namespace PositionQuery

theorem carries (q : PositionQuery) : Carries q q.key.members :=
  .ofKeyedRecord fits (by decide) rfl rfl q.key.plain_members

end PositionQuery

namespace OrderQuery

def members (q : OrderQuery) : List (String × Value) :=
  q.key.members ++ (q.orderId.map fun id ↦ ("order_id", Codec.write id)).toList ++
    (q.status.map fun s ↦ ("status", Codec.write s)).toList

theorem carries (q : OrderQuery) : Carries q q.members := by
  have hmembers : layout.written (layout.project q) = q.members := by
    rcases q with ⟨_, _ | _, _ | _⟩ <;> rfl
  apply Carries.ofKeyedRecord fits (by decide) rfl hmembers
  simp only [members, List.forall_mem_append]
  refine ⟨⟨q.key.plain_members, ?_⟩, ?_⟩
  · cases q.orderId with
    | none => exact List.forall_mem_nil _
    | some id => exact List.forall_mem_singleton.mpr (Value.plain_text id)
  · cases q.status with
    | none => exact List.forall_mem_nil _
    | some s => exact List.forall_mem_singleton.mpr (Value.plain_text _)

end OrderQuery

namespace OrderCommand

def members (c : OrderCommand) : List (String × Value) :=
  c.key.members ++
    [("order_type", Codec.write c.orderType), ("price_type", Codec.write c.priceType),
      ("price", Codec.write c.price), ("amount", Codec.write c.amount),
      ("vol", Codec.write c.vol), ("lever", Codec.write c.lever)]

theorem carries (c : OrderCommand) (hprice : ReadsBack c.price) (hvol : ReadsBack c.vol) :
    Carries c c.members := by
  refine Carries.ofKeyedRecord fits (by decide) rfl rfl ?_
  simp only [members, List.forall_mem_append, List.forall_mem_cons]
  exact ⟨c.key.plain_members, Value.plain_text _, Value.plain_text _, Value.plain_float hprice,
    Value.plain_int64 c.amount, Value.plain_float hvol, Value.plain_int32 c.lever, List.forall_mem_nil _⟩

end OrderCommand

namespace CancelCommand

def members (c : CancelCommand) : List (String × Value) :=
  c.key.members ++ [("order_ids", Codec.write c.orderIds)]

theorem carries (c : CancelCommand) : Carries c c.members := by
  refine Carries.ofKeyedRecord fits (by decide) rfl rfl ?_
  rw [members, List.forall_mem_append, List.forall_mem_singleton]
  exact ⟨c.key.plain_members, Value.plain_strings c.orderIds⟩

end CancelCommand

namespace TransferRequest

def members (t : TransferRequest) : List (String × Value) :=
  [("exchange", Codec.write t.exchange), ("symbol", Codec.write t.symbol),
    ("direction", Codec.write t.direction), ("amount", Codec.write t.amount)]

theorem carries (t : TransferRequest) (hamount : ReadsBack t.amount) : Carries t t.members := by
  refine Carries.ofRecord fits (by decide) rfl rfl ?_
  simp only [members, List.forall_mem_cons]
  exact ⟨Value.plain_text _, Value.plain_text _, Value.plain_text _, Value.plain_float hamount,
    List.forall_mem_nil _⟩

end TransferRequest

end TradeDesk
