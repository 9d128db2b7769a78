import McpMemory.Curation.Ledger
import McpMemory.Ingress.Evidence
import McpMemory.Journal.Store
import McpMemory.Memory.Tables

/-! The one database that the journal, the ingress and the curation transactions share. -/
namespace McpMemory

structure Database where
  memory : Memory.Tables
  journal : Journal.Store
  ingress : Ingress.Evidence
  curation : Curation.Ledger
  protections : List Curation.Protection

def Database.empty : Database := ⟨Memory.empty,Journal.empty,.empty,.empty,[]⟩

end McpMemory
