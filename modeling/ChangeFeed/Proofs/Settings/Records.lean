import ChangeFeed.Settings.All
import ChangeFeed.Proofs.Settings.Places

/-!
# Records that are read from merged settings

A record that is read from a node has in each field what the field's form makes of the node that
stands under the field's name. `ofNode_record` and `yields_and` say so for any record; for each
record of the settings, `gives_of_ofNode` names the fields that hold texts, and those on the way to
them.
-/

namespace ChangeFeed.Settings

/-- Whether a form makes a value of what stands under a name, if anything does. -/
def Gives {α : Type} (root : Node) (name : String) (form : Form α) (a : α) : Prop :=
  ∀ node, root.at? [name] = some node → form.ofNode node = .ok a

variable {ρ α β : Type}

namespace Fields

/-- Whether a value is what a field of a record is read as. -/
def Reads (standard : ρ) (nodes : String → Option (Node.Step × Node)) (name : String)
    (form : Form α) (get : ρ → α) (a : α) : Prop :=
  (field name form get).ofNodes standard nodes = .ok a

/-- Whether fields are read as something with a property. -/
def Yields (f : Fields ρ α) (standard : ρ) (nodes : String → Option (Node.Step × Node))
    (P : α → Prop) : Prop :=
  ∃ a, f.ofNodes standard nodes = .ok a ∧ P a

variable {standard : ρ} {nodes : String → Option (Node.Step × Node)}

theorem yields_none {a : α} {P : α → Prop} :
    (none a : Fields ρ α).Yields standard nodes P ↔ P a := by
  constructor
  · rintro ⟨b, hb, hP⟩
    exact Except.ok.inj hb ▸ hP
  · exact fun hP => ⟨a, rfl, hP⟩

theorem yields_and {f : Fields ρ (α → β)} {name : String} {form : Form α} {get : ρ → α}
    {P : β → Prop} :
    (f.and name form get).Yields standard nodes P ↔
      f.Yields standard nodes fun g => ∃ a, Reads standard nodes name form get a ∧ P (g a) := by
  have hseq : (f.and name form get).ofNodes standard nodes =
      (f.ofNodes standard nodes >>= fun g =>
        (field name form get).ofNodes standard nodes >>= fun a => .ok (g a)) := rfl
  simp only [Yields, Reads, hseq, bind_eq_ok_iff]
  constructor
  · rintro ⟨b, ⟨g, hg, a, ha, hb⟩, hP⟩
    exact ⟨g, hg, a, ha, Except.ok.inj hb ▸ hP⟩
  · rintro ⟨g, hg, a, ha, hP⟩
    exact ⟨g a, ⟨g, hg, a, ha, rfl⟩, hP⟩

theorem Reads.ofNode {name : String} {form : Form α} {get : ρ → α} {a : α}
    (h : Reads standard nodes name form get a) {step : Node.Step} {node : Node}
    (hnode : nodes name = some (step, node)) : form.ofNode node = .ok a := by
  have hfield : (field name form get).ofNodes standard nodes =
      (form.ofNode node).mapError (·.under step) := by
    simp only [field, hnode]
  rw [Reads, hfield] at h
  cases hread : form.ofNode node with
  | error fault => rw [hread] at h; cases h
  | ok b => rw [hread] at h; exact h

end Fields

/-- A record is read from what stands under the names of its fields. -/
theorem ofNode_record {type : String} {standard r : ρ} {fields : Fields ρ ρ} {root : Node}
    (h : (Form.record type standard fields).ofNode root = .ok r) :
    ∃ nodes, fields.Yields standard nodes (· = r) ∧
      ∀ {α : Type} {name : String} {form : Form α} {get : ρ → α} {a : α},
        Fields.Reads standard nodes name form get a → Gives root name form a := by
  cases root with
  | scalar origin value => cases h
  | table origin given =>
    refine ⟨_, ⟨r, h, rfl⟩, fun {α name form get a} hread node hnode => ?_⟩
    have hlookup : given.lookup name = some node := by
      simpa [Node.at?_cons, Node.fields] using hnode
    exact hread.ofNode (congrArg (Option.map fun node => (Node.Step.key name, node)) hlookup)
  | list origin given => exact ⟨_, ⟨r, h, rfl⟩, fun _ _ hnode => nomatch hnode⟩

/-! ## The records of the settings -/

theorem gives_of_ofNode {s : Settings} {root : Node} (h : form.ofNode root = .ok s) :
    Gives root "upstream" Orchestrator.form s.orchestrator ∧
      Gives root "coordination" Coordination.form s.coordination ∧
      Gives root "sink" Output.form s.output := by
  obtain ⟨nodes, hread, hgives⟩ := ofNode_record h
  simp only [Fields.yields_and, Fields.yields_none] at hread
  obtain ⟨_, hupstream, _, hcoordination, _, -, _, -, _, hsink, _, -, rfl⟩ := hread
  exact ⟨hgives hupstream, hgives hcoordination, hgives hsink⟩

namespace Orchestrator

theorem gives_of_ofNode {s : Orchestrator} {root : Node} (h : form.ofNode root = .ok s) :
    Gives root "address" .text s.address ∧ Gives root "token" (.optional .text) s.token ∧
      Gives root "region" (.optional .text) s.region := by
  obtain ⟨nodes, hread, hgives⟩ := ofNode_record h
  simp only [Fields.yields_and, Fields.yields_none] at hread
  obtain ⟨_, haddress, _, htoken, _, hregion, _, -, _, -, rfl⟩ := hread
  exact ⟨hgives haddress, hgives htoken, hgives hregion⟩

end Orchestrator

namespace Consul

theorem gives_of_ofNode {s : Consul} {root : Node} (h : form.ofNode root = .ok s) :
    Gives root "address" .text s.address ∧ Gives root "token" (.optional .text) s.token := by
  obtain ⟨nodes, hread, hgives⟩ := ofNode_record h
  simp only [Fields.yields_and, Fields.yields_none] at hread
  obtain ⟨_, haddress, _, htoken, rfl⟩ := hread
  exact ⟨hgives haddress, hgives htoken⟩

end Consul

namespace Embedded

theorem gives_of_ofNode {s : Embedded} {root : Node} (h : form.ofNode root = .ok s) :
    Gives root "db_path" .text s.path := by
  obtain ⟨nodes, hread, hgives⟩ := ofNode_record h
  simp only [Fields.yields_and, Fields.yields_none] at hread
  obtain ⟨_, hpath, rfl⟩ := hread
  exact hgives hpath

end Embedded

namespace Coordination

theorem gives_of_ofNode {s : Coordination} {root : Node} (h : form.ofNode root = .ok s) :
    Gives root "key_prefix" .text s.keyPrefix ∧ Gives root "consul" Consul.form s.consul ∧
      Gives root "local" Embedded.form s.embedded := by
  obtain ⟨nodes, hread, hgives⟩ := ofNode_record h
  simp only [Fields.yields_and, Fields.yields_none] at hread
  obtain ⟨_, -, _, hprefix, _, -, _, -, _, -, _, -, _, -, _, hconsul, _, hembedded, rfl⟩ := hread
  exact ⟨hgives hprefix, hgives hconsul, hgives hembedded⟩

end Coordination

namespace Web

theorem gives_of_ofNode {s : Web} {root : Node} (h : form.ofNode root = .ok s) :
    Gives root "address" (.optional .text) s.address := by
  obtain ⟨nodes, hread, hgives⟩ := ofNode_record h
  simp only [Fields.yields_and, Fields.yields_none] at hread
  obtain ⟨_, haddress, _, -, rfl⟩ := hread
  exact hgives haddress

end Web

namespace Kafka

theorem gives_of_ofNode {s : Kafka} {root : Node} (h : form.ofNode root = .ok s) :
    Gives root "brokers" (.optional .text) s.brokers ∧
      Gives root "topic" (.optional .text) s.topic := by
  obtain ⟨nodes, hread, hgives⟩ := ofNode_record h
  simp only [Fields.yields_and, Fields.yields_none] at hread
  obtain ⟨_, hbrokers, _, htopic, _, -, rfl⟩ := hread
  exact ⟨hgives hbrokers, hgives htopic⟩

end Kafka

namespace Sqs

theorem gives_of_ofNode {s : Sqs} {root : Node} (h : form.ofNode root = .ok s) :
    Gives root "queue_url" (.optional .text) s.queueUrl ∧
      Gives root "region" (.optional .text) s.region ∧ Gives root "group_id" .text s.groupId := by
  obtain ⟨nodes, hread, hgives⟩ := ofNode_record h
  simp only [Fields.yields_and, Fields.yields_none] at hread
  obtain ⟨_, hqueue, _, hregion, _, hgroup, rfl⟩ := hread
  exact ⟨hgives hqueue, hgives hregion, hgives hgroup⟩

end Sqs

namespace Output

theorem gives_of_ofNode {s : Output} {root : Node} (h : form.ofNode root = .ok s) :
    Gives root "http" Web.form s.web ∧ Gives root "kafka" Kafka.form s.kafka ∧
      Gives root "sqs" Sqs.form s.sqs := by
  obtain ⟨nodes, hread, hgives⟩ := ofNode_record h
  simp only [Fields.yields_and, Fields.yields_none] at hread
  obtain ⟨_, -, _, -, _, -, _, -, _, -, _, -, _, hweb, _, hkafka, _, hsqs, rfl⟩ := hread
  exact ⟨hgives hweb, hgives hkafka, hgives hsqs⟩

end Output

end ChangeFeed.Settings
