/-!
# The bundled declarations of the operations

The second of the two sources that are scanned when no path is named.  Its
comments declare the eight operations on handles and their flags.
-/

namespace ResourceHandles

def operationSourceLines : List String := [
  "//! The unified I/O facade.",
  "//!",
  "//! [`Runtime`] is the context object that owns the handle table. Every",
  "//! operation classifies its handle through the table, clones the entry out",
  "//! and releases the table lock before any driver I/O, so the lock is never",
  "//! held across a suspension point.",
  "//!",
  "//! Error policy (kept deliberately uneven):",
  "//!",
  "//! | operation | unknown handle | malformed address | platform failure |",
  "//! |---|---|---|---|",
  "//! | `open` | n/a | n/a | `Err` |",
  "//! | `close` | no-op | n/a | `Err` for file flush, logged for sockets |",
  "//! | `read` | empty | n/a | `Err` |",
  "//! | `write` | no-op | n/a | `Err` |",
  "//! | `unlink` | n/a | n/a | `Err` |",
  "//! | `listen` | n/a | `-1` | `-1` |",
  "//! | `accept` | `-1` | n/a | `-1` |",
  "//! | `connect` | n/a | `-1` | `-1` |",
  "//!",
  "//! The `(def ...)` and `(defun ...)` line comments above each operation are",
  "//! manifest directives read by `unio-manifest`; the `_async` flags describe",
  "//! the default pre-resolved call mode. Plain `//` comments in this file are",
  "//! reserved for directives.",
  "",
  "use std::path::Path;",
  "use std::sync::\x7bArc, Mutex, MutexGuard, PoisonError\x7d;",
  "",
  "use anyhow::\x7bContext, Result\x7d;",
  "use tracing::\x7bdebug, instrument, trace, warn\x7d;",
  "",
  "use crate::core::address::\x7bEndpoint, parse_address\x7d;",
  "use crate::core::handle::\x7bHandle, Kind\x7d;",
  "use crate::core::mode::\x7bCallMode, Op\x7d;",
  "use crate::core::open_flags::\x7bOpenFlag, OpenMode\x7d;",
  "use crate::core::table::\x7bHandleTable, Slot\x7d;",
  "use crate::io::config::RuntimeConfig;",
  "use crate::io::connection::ConnectionEntry;",
  "use crate::io::file::FileEntry;",
  "use crate::io::listener::ListenerEntry;",
  "",
  "type Entry = Slot<Arc<FileEntry>, Arc<ListenerEntry>, Arc<ConnectionEntry>>;",
  "type Table = HandleTable<Arc<FileEntry>, Arc<ListenerEntry>, Arc<ConnectionEntry>>;",
  "",
  "/// One independent handle namespace and the resources bound into it.",
  "///",
  "/// Dropping the runtime releases every resource it still owns.",
  "#[derive(Debug, Default)]",
  "pub struct Runtime \x7b",
  "    config: RuntimeConfig,",
  "    table: Mutex<Table>,",
  "\x7d",
  "",
  "impl Runtime \x7b",
  "    pub fn new(config: RuntimeConfig) -> Self \x7b",
  "        Self \x7b",
  "            config,",
  "            table: Mutex::new(Table::new()),",
  "        \x7d",
  "    \x7d",
  "",
  "    pub fn with_mode(mode: CallMode) -> Self \x7b",
  "        Self::new(RuntimeConfig::with_mode(mode))",
  "    \x7d",
  "",
  "    pub fn config(&self) -> &RuntimeConfig \x7b",
  "        &self.config",
  "    \x7d",
  "",
  "    pub fn mode(&self) -> CallMode \x7b",
  "        self.config.mode",
  "    \x7d",
  "",
  "    pub fn classify(&self, handle: Handle) -> Kind \x7b",
  "        self.table().classify(handle)",
  "    \x7d",
  "",
  "    /// Number of handles currently open.",
  "    pub fn open_handles(&self) -> usize \x7b",
  "        self.table().len()",
  "    \x7d",
  "",
  "    // (def open_async 0)",
  "    // (defun (open: int) [(path: string) (opts: int[])])",
  "    #[instrument(skip_all, fields(path = %path.as_ref().display(), mode = %self.config.mode))]",
  "    pub async fn open(&self, path: impl AsRef<Path>, flags: Option<&[OpenFlag]>) -> Result<Handle> \x7b",
  "        let path = path.as_ref();",
  "        let access = OpenMode::from_flags(flags);",
  "        let entry =",
  "            FileEntry::open(path, access, self.config.mode, self.config.buffer_size).await?;",
  "        let handle = self.register(Slot::File(Arc::new(entry)));",
  "        debug!(%handle, \"file opened\");",
  "        Ok(handle)",
  "    \x7d",
  "",
  "    // (def close_async 0)",
  "    // (defun (close: nil) [(fd: int)])",
  "    #[instrument(skip_all, fields(handle = %handle))]",
  "    pub async fn close(&self, handle: Handle) -> Result<()> \x7b",
  "        let Some(entry) = self.release(handle) else \x7b",
  "            trace!(\"close on unknown handle\");",
  "            return Ok(());",
  "        \x7d;",
  "        let kind = entry.kind();",
  "        match entry \x7b",
  "            Slot::File(file) => file",
  "                .close(self.config.mode)",
  "                .await",
  "                .with_context(|| format!(\"close file handle \x7bhandle\x7d\"))?,",
  "            Slot::Listener(listener) => listener.close(),",
  "            Slot::Connection(conn) => conn.close(self.config.mode).await,",
  "        \x7d",
  "        debug!(%kind, \"handle closed\");",
  "        Ok(())",
  "    \x7d",
  "",
  "    // (def read_async 1)",
  "    // (defun (read: int[]) [(fd: int)])",
  "    pub async fn read(&self, handle: Handle) -> Result<Vec<u8>> \x7b",
  "        self.read_with(handle, |bytes| bytes.to_vec()).await",
  "    \x7d",
  "",
  "    /// Read the next chunk from a file or connection and lend it to `f`.",
  "    ///",
  "    /// The slice borrows the handle's reusable buffer, so it cannot outlive",
  "    /// the call. Empty means end-of-stream, or a handle that is not a file or",
  "    /// connection.",
  "    #[instrument(skip_all, fields(handle = %handle))]",
  "    pub async fn read_with<T>(&self, handle: Handle, f: impl FnOnce(&[u8]) -> T) -> Result<T> \x7b",
  "        match self.lookup(handle) \x7b",
  "            Some(Slot::File(file)) => file",
  "                .read_with(f)",
  "                .await",
  "                .with_context(|| format!(\"read handle \x7bhandle\x7d\")),",
  "            Some(Slot::Connection(conn)) => conn",
  "                .read_with(f)",
  "                .await",
  "                .with_context(|| format!(\"read handle \x7bhandle\x7d\")),",
  "            Some(Slot::Listener(_)) | None => \x7b",
  "                trace!(\"read on non-readable handle\");",
  "                Ok(f(&[]))",
  "            \x7d",
  "        \x7d",
  "    \x7d",
  "",
  "    // (def write_async 1)",
  "    // (defun (write: nil) [(fd: int) (data: int[])])",
  "    #[instrument(skip_all, fields(handle = %handle, len = data.len()))]",
  "    pub async fn write(&self, handle: Handle, data: &[u8]) -> Result<()> \x7b",
  "        match self.lookup(handle) \x7b",
  "            Some(Slot::File(file)) => file",
  "                .write(data)",
  "                .await",
  "                .with_context(|| format!(\"write handle \x7bhandle\x7d\")),",
  "            Some(Slot::Connection(conn)) => conn",
  "                .write(data)",
  "                .await",
  "                .with_context(|| format!(\"write handle \x7bhandle\x7d\")),",
  "            Some(Slot::Listener(_)) | None => \x7b",
  "                trace!(\"write on non-writable handle\");",
  "                Ok(())",
  "            \x7d",
  "        \x7d",
  "    \x7d",
  "",
  "    // (def unlink_async 0)",
  "    // (defun (unlink: nil) [(path: string)])",
  "    #[instrument(skip_all, fields(path = %path.as_ref().display()))]",
  "    pub async fn unlink(&self, path: impl AsRef<Path>) -> Result<()> \x7b",
  "        let path = path.as_ref();",
  "        let removed = if self.config.mode.suspends(Op::Unlink) \x7b",
  "            tokio::fs::remove_file(path).await",
  "        \x7d else \x7b",
  "            std::fs::remove_file(path)",
  "        \x7d;",
  "        removed.with_context(|| format!(\"unlink \x7b\x7d\", path.display()))",
  "    \x7d",
  "",
  "    // (def listen_async 0)",
  "    // (defun (listen: int) [(address: string)])",
  "    #[instrument(skip_all, fields(address = %address))]",
  "    pub async fn listen(&self, address: &str) -> Handle \x7b",
  "        let Some(endpoint) = self.endpoint(address) else \x7b",
  "            return Handle::INVALID;",
  "        \x7d;",
  "        match ListenerEntry::bind(&endpoint, self.config.mode, self.config.buffer_size).await \x7b",
  "            Ok(entry) => \x7b",
  "                let local = entry.local_addr().ok();",
  "                let handle = self.register(Slot::Listener(Arc::new(entry)));",
  "                debug!(%handle, ?local, \"listening\");",
  "                handle",
  "            \x7d",
  "            Err(err) => \x7b",
  "                warn!(error = %format!(\"\x7berr:#\x7d\"), \"listen failed\");",
  "                Handle::INVALID",
  "            \x7d",
  "        \x7d",
  "    \x7d",
  "",
  "    // (def accept_async 1)",
  "    // (defun (accept: int) [(listener: int)])",
  "    #[instrument(skip_all, fields(listener = %listener))]",
  "    pub async fn accept(&self, listener: Handle) -> Handle \x7b",
  "        let Some(Slot::Listener(entry)) = self.lookup(listener) else \x7b",
  "            trace!(\"accept on non-listener handle\");",
  "            return Handle::INVALID;",
  "        \x7d;",
  "        match entry.accept().await \x7b",
  "            None => \x7b",
  "                debug!(\"listener closed while accepting\");",
  "                Handle::INVALID",
  "            \x7d",
  "            Some(Err(err)) => \x7b",
  "                debug!(error = %err, \"accept failed\");",
  "                Handle::INVALID",
  "            \x7d",
  "            Some(Ok((stream, peer))) => \x7b",
  "                let conn = ConnectionEntry::new(stream, self.config.buffer_size);",
  "                let handle = self.register(Slot::Connection(Arc::new(conn)));",
  "                debug!(%handle, %peer, \"connection accepted\");",
  "                handle",
  "            \x7d",
  "        \x7d",
  "    \x7d",
  "",
  "    // (def connect_async 1)",
  "    // (defun (connect: int) [(address: string)])",
  "    #[instrument(skip_all, fields(address = %address))]",
  "    pub async fn connect(&self, address: &str) -> Handle \x7b",
  "        let Some(endpoint) = self.endpoint(address) else \x7b",
  "            return Handle::INVALID;",
  "        \x7d;",
  "        match ConnectionEntry::connect(&endpoint, self.config.buffer_size).await \x7b",
  "            Ok(conn) => \x7b",
  "                let peer = conn.peer_addr();",
  "                let handle = self.register(Slot::Connection(Arc::new(conn)));",
  "                debug!(%handle, ?peer, \"connected\");",
  "                handle",
  "            \x7d",
  "            Err(err) => \x7b",
  "                debug!(error = %format!(\"\x7berr:#\x7d\"), \"connect failed\");",
  "                Handle::INVALID",
  "            \x7d",
  "        \x7d",
  "    \x7d",
  "",
  "    fn endpoint(&self, address: &str) -> Option<Endpoint> \x7b",
  "        let endpoint = parse_address(address, &self.config.wildcard_host);",
  "        if endpoint.is_none() \x7b",
  "            debug!(\"malformed address\");",
  "        \x7d",
  "        endpoint",
  "    \x7d",
  "",
  "    fn table(&self) -> MutexGuard<'_, Table> \x7b",
  "        self.table.lock().unwrap_or_else(PoisonError::into_inner)",
  "    \x7d",
  "",
  "    fn register(&self, entry: Entry) -> Handle \x7b",
  "        self.table().insert(entry)",
  "    \x7d",
  "",
  "    fn lookup(&self, handle: Handle) -> Option<Entry> \x7b",
  "        self.table().get(handle)",
  "    \x7d",
  "",
  "    fn release(&self, handle: Handle) -> Option<Entry> \x7b",
  "        self.table().remove(handle)",
  "    \x7d",
  "\x7d"]

/-- The text of the source; each line ends with a line feed. -/
def operationSource : String :=
  String.join (operationSourceLines.map (· ++ "\n"))

end ResourceHandles
