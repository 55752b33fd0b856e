import DualSeal.Config.Document
import DualSeal.Proofs.Network.Address
import DualSeal.Proofs.Outcome
import DualSeal.Proofs.Toml.Document

/-!
# Configuration documents are read back

A configuration whose times are integers of the format has a document, which is read as the same
configuration (`exists_toToml`). One with a longer time has none (`exists_toToml_error`).
-/

namespace DualSeal.Config

open Toml (ReadsAs IsBare IsWritten entryStatement tableStatements readsAs_header readsAs_entry
  readsAs_blank readsAs_nil isWritten_text isWritten_string isWritten_integer)

variable {config : Config} {name : String} {written rest : List Char} {value : Toml.Value}
  {statements : List Toml.Statement}

/-! ## Lines -/

theorem readsAs_headerLine (hname : IsBare name) (h : ReadsAs rest statements) :
    ReadsAs (headerLine name ++ rest) (.header ⟨[], name⟩ :: statements) := by
  have hline : headerLine name ++ rest = '[' :: (name.toList ++ ']' :: '\n' :: rest) := by
    simp [headerLine]
  exact hline ▸ readsAs_header hname h

theorem readsAs_entryLine (hname : IsBare name) (hwritten : IsWritten written value)
    (h : ReadsAs rest statements) :
    ReadsAs (entryLine name written ++ rest) (.entry ⟨[], name⟩ value :: statements) := by
  have hline : entryLine name written ++ rest
      = name.toList ++ ' ' :: '=' :: ' ' :: (written ++ '\n' :: rest) := by
    simp [entryLine]
  exact hline ▸ readsAs_entry hname hwritten h

/-! ## Servers -/

/-- The entry of a shared key, where there is one. -/
def idEntries : Option KeyId → Toml.Table
  | some id => [("shared_key_id", .text id.text)]
  | none => []

def serverTable (server : ServerConfig) : Toml.Table :=
  ("listen", .text server.listen.text) :: ("key_dir", .text server.keyDir.text) ::
    idEntries server.sharedKeyId

theorem readsAs_serverLines (server : ServerConfig) (h : ReadsAs rest statements) :
    ReadsAs (serverLines server ++ rest)
      (tableStatements ("server", serverTable server) ++ statements) := by
  have hid : ReadsAs ((match server.sharedKeyId with
      | some id => entryLine "shared_key_id" (Toml.writeText id.text.toList)
      | none => []) ++ rest) ((idEntries server.sharedKeyId).map entryStatement ++ statements) := by
    cases server.sharedKeyId with
    | none => exact h
    | some id => exact readsAs_entryLine (by decide) (isWritten_string id.text) h
  rw [serverLines, List.append_assoc, List.append_assoc, List.append_assoc]
  exact readsAs_headerLine (by decide) (readsAs_entryLine (by decide) (isWritten_text _)
    (readsAs_entryLine (by decide) (isWritten_string _) hid))

theorem nodup_serverTable (server : ServerConfig) : ((serverTable server).map Prod.fst).Nodup := by
  rw [serverTable]
  cases server.sharedKeyId <;> simp [idEntries]

/-- **Servers.** Their fields are read from their table. -/
theorem readServer_serverTable (server : ServerConfig) :
    readServer (serverTable server) = .ok server := by
  obtain ⟨listen, keyDir, sharedKeyId⟩ := server
  cases sharedKeyId <;>
    simp [readServer, serverTable, idEntries, field, List.lookup_cons, text?,
      SocketAddress.ofText?_text]

/-! ## Clients -/

def clientTable (client : ClientConfig) : Toml.Table :=
  [("server_url", .text client.serverUrl), ("timeout_ms", .integer client.timeout.toNat),
    ("max_retries", .integer client.maxRetries.toNat),
    ("retry_backoff_ms", .integer client.retryBackoff.toNat)]

/-- A client whose times are integers of the format. -/
def IsWritable (client : ClientConfig) : Prop :=
  client.timeout.toNat < Toml.integerBound ∧ client.retryBackoff.toNat < Toml.integerBound

theorem writeNumber_of_lt {number : Nat} (h : number < Toml.integerBound) :
    writeNumber name number = .ok (Numeral.write 10 number) := if_pos h

theorem maxRetries_lt (client : ClientConfig) : client.maxRetries.toNat < Toml.integerBound :=
  client.maxRetries.toNat_lt.trans (by decide)

theorem exists_clientLines {client : ClientConfig} (h : IsWritable client) :
    ∃ lines, clientLines client = .ok lines ∧
      ReadsAs lines (tableStatements ("client", clientTable client)) := by
  have hlines : clientLines client = .ok (headerLine "client" ++
      entryLine "server_url" (Toml.writeText client.serverUrl.toList) ++
      entryLine "timeout_ms" (Numeral.write 10 client.timeout.toNat) ++
      entryLine "max_retries" (Numeral.write 10 client.maxRetries.toNat) ++
      entryLine "retry_backoff_ms" (Numeral.write 10 client.retryBackoff.toNat)) := by
    rw [clientLines, writeNumber_of_lt h.1, writeNumber_of_lt (maxRetries_lt client),
      writeNumber_of_lt h.2]
    rfl
  refine ⟨_, hlines, ?_⟩
  rw [List.append_assoc, List.append_assoc, List.append_assoc,
    ← List.append_nil (entryLine "retry_backoff_ms" _)]
  exact readsAs_headerLine (by decide) (readsAs_entryLine (by decide) (isWritten_string _)
    (readsAs_entryLine (by decide) (isWritten_integer h.1)
      (readsAs_entryLine (by decide) (isWritten_integer (maxRetries_lt client))
        (readsAs_entryLine (by decide) (isWritten_integer h.2) readsAs_nil))))

theorem exists_clientLines_error {client : ClientConfig} (h : ¬ IsWritable client) :
    ∃ fault, clientLines client = .error fault := by
  rw [clientLines, writeNumber]
  split_ifs with htimeout
  · have hbackoff : ¬ client.retryBackoff.toNat < Toml.integerBound := fun hlt ↦ h ⟨htimeout, hlt⟩
    rw [writeNumber_of_lt (maxRetries_lt client), writeNumber, if_neg hbackoff]
    exact ⟨_, rfl⟩
  · exact ⟨_, rfl⟩

theorem natural?_integer {bound number : Nat} (h : number < bound) :
    natural? bound (.integer number) = some number := if_pos h

/-- **Clients.** Their fields are read from their table. -/
theorem readClient_clientTable (client : ClientConfig) :
    readClient (clientTable client) = .ok client := by
  have htimeout := natural?_integer client.timeout.toNat_lt
  have hretries := natural?_integer client.maxRetries.toNat_lt
  have hbackoff := natural?_integer client.retryBackoff.toNat_lt
  simp [readClient, clientTable, field, List.lookup_cons, text?, UInt64.size, UInt32.size, htimeout,
    hretries, hbackoff]

/-! ## Documents -/

/-- **Documents.** A configuration whose times are integers of the format is written out, and read
back from its document. -/
theorem exists_toToml (h : IsWritable config.client) :
    ∃ document, config.toToml = .ok document ∧ ofToml document = .ok config := by
  obtain ⟨lines, hlines, hreads⟩ := exists_clientLines h
  set document := serverLines config.server ++ '\n' :: lines with hdocument
  set tables := [("server", serverTable config.server), ("client", clientTable config.client)]
    with htables
  have hstatements : ReadsAs document (tables.flatMap tableStatements) := by
    simpa [htables] using readsAs_serverLines config.server (readsAs_blank hreads)
  have hmark : document.head? ≠ some Toml.byteOrderMark := by
    have hhead : document.head? = some '[' := rfl
    rw [hhead]
    decide
  have hentries : ∀ table ∈ tables, (table.2.map Prod.fst).Nodup := by
    simp [htables, nodup_serverTable, clientTable]
  have hread := Toml.ofText?_of_readsAs hstatements hmark (by simp [htables]) hentries
  refine ⟨String.ofList document, ?_, ?_⟩
  · rw [toToml, hlines]
    rfl
  · rw [ofToml, hread]
    simp [htables, Toml.headed, field, List.lookup_cons, recordFields?, readServer_serverTable,
      readClient_clientTable]

/-- A configuration with a time that is no integer of the format has no document. -/
theorem exists_toToml_error (h : ¬ IsWritable config.client) :
    ∃ fault, config.toToml = .error fault := by
  obtain ⟨fault, hfault⟩ := exists_clientLines_error h
  rw [toToml, hfault]
  exact ⟨fault, rfl⟩

end DualSeal.Config
