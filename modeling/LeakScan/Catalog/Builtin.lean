import LeakScan.Rule.Document

/-!
# LeakScan.Catalog.Builtin

The rules and the lifecycle table that every catalog starts with.

* `Builtin.lifecycle` — names of callbacks, teardown methods and hooks.
* `Builtin.rules` — one draft a rule, grouped by language.
* `Builtin.document` — both as a document.
-/

namespace LeakScan.Builtin

def lifecycle : Lifecycle where
  pairs :=
    [⟨"componentDidMount", ["componentWillUnmount"]⟩,
      ⟨"connectedCallback", ["disconnectedCallback"]⟩,
      ⟨"ngOnInit", ["ngOnDestroy"]⟩,
      ⟨"ngAfterViewInit", ["ngOnDestroy"]⟩,
      ⟨"mounted", ["beforeDestroy", "destroyed", "beforeUnmount", "unmounted"]⟩,
      ⟨"created", ["beforeDestroy", "destroyed", "beforeUnmount", "unmounted"]⟩,
      ⟨"onMounted", ["onUnmounted", "onBeforeUnmount"]⟩,
      ⟨"onBeforeMount", ["onUnmounted", "onBeforeUnmount"]⟩,
      ⟨"onMount", ["onDestroy"]⟩,
      ⟨"beforeEach", ["afterEach"]⟩,
      ⟨"beforeAll", ["afterAll"]⟩,
      ⟨"viewDidLoad", ["deinit", "viewDidDisappear"]⟩,
      ⟨"viewWillAppear", ["viewWillDisappear", "viewDidDisappear"]⟩,
      ⟨"viewDidAppear", ["viewWillDisappear", "viewDidDisappear"]⟩,
      ⟨"awakeFromNib", ["deinit"]⟩,
      ⟨"init", ["deinit"]⟩,
      ⟨"__enter__", ["__exit__"]⟩,
      ⟨"__aenter__", ["__aexit__"]⟩,
      ⟨"setUp", ["tearDown"]⟩,
      ⟨"setUpClass", ["tearDownClass"]⟩,
      ⟨"setup_method", ["teardown_method"]⟩,
      ⟨"setup", ["teardown"]⟩,
      ⟨"onCreate", ["onDestroy"]⟩,
      ⟨"onStart", ["onStop"]⟩,
      ⟨"onResume", ["onPause"]⟩,
      ⟨"onAttachedToWindow", ["onDetachedFromWindow"]⟩,
      ⟨"initState", ["dispose"]⟩,
      ⟨"start", ["stop"]⟩,
      ⟨"open", ["close"]⟩]
  teardown :=
    ["dispose", "Dispose", "close", "Close", "destroy", "deinit", "teardown", "tearDown",
      "cleanup", "stop", "Stop", "shutdown", "release", "finalize", "__exit__", "__aexit__",
      "__del__", "componentWillUnmount", "disconnectedCallback", "ngOnDestroy", "beforeDestroy",
      "destroyed", "beforeUnmount", "unmounted", "viewWillDisappear", "viewDidDisappear",
      "onDestroy", "onStop", "onPause", "onDetachedFromWindow", "tearDownClass",
      "teardown_method", "unmount"]
  hooks :=
    ["useEffect", "useLayoutEffect", "useInsertionEffect", "onMounted", "onBeforeMount",
      "onUnmounted", "onBeforeUnmount", "onMount", "onDestroy", "beforeEach", "afterEach",
      "beforeAll", "afterAll"]

/-- Every place where a cleanup can count. -/
def everywhere : List String := CleanupContext.all.map (·.name)

def code (structural : String) : PatternDraft := { structural := some structural }

def text (textual : String) : PatternDraft := { textual := some textual }

def codeOrText (structural textual : String) : PatternDraft :=
  { structural := some structural, textual := some textual }

/-! ## JavaScript and TypeScript -/

def jsTimerInterval : RuleDraft where
  id := "js.timer.interval"
  language := "javascript"
  kind := "timer"
  category := "async-resources"
  severity := "critical"
  anchors := ["setInterval"]
  summary := "setInterval without a matching clearInterval"
  remediation := some
    "Keep the interval id and call clearInterval(id) in the component teardown or the effect cleanup."
  acquire :=
    [code "const $T = setInterval($$$ARGS)",
      code "let $T = setInterval($$$ARGS)",
      code "var $T = setInterval($$$ARGS)",
      code "$T = setInterval($$$ARGS)",
      code "setInterval($$$ARGS)",
      text "(?:\\b(?:const|let|var)\\s+)?(?P<T>[\\w$][\\w$.\\[\\]]*)\\s*=\\s*(?:window\\.)?setInterval\\s*\\(",
      text "\\bsetInterval\\s*\\("]
  cleanup :=
    [codeOrText "clearInterval($T)"
        "\\bclearInterval\\s*\\(\\s*(?P<T>[\\w$][\\w$.\\[\\]]*)\\s*\\)"]
  contexts := everywhere

def jsListenerDom : RuleDraft where
  id := "js.listener.dom"
  language := "javascript"
  kind := "listener"
  category := "event-listeners"
  severity := "warning"
  anchors := ["addEventListener"]
  summary := "addEventListener without a matching removeEventListener"
  remediation := some
    "Register a named handler and remove it with removeEventListener using the same event name and handler."
  acquire :=
    [code "$TARGET.addEventListener($EVENT, $HANDLER)",
      code "$TARGET.addEventListener($EVENT, $HANDLER, $$$OPTS)",
      text "(?P<TARGET>[\\w$][\\w$.\\[\\]]*)\\s*\\.\\s*addEventListener\\s*\\(\\s*(?P<EVENT>'[^']*'|\\\"[^\\\"]*\\\"|`[^`]*`|[\\w$.]+)\\s*,\\s*(?P<HANDLER>function\\b|\\([^)]*\\)\\s*=>|[\\w$]+\\s*=>|[\\w$][\\w$.]*)"]
  cleanup :=
    [code "$TARGET.removeEventListener($EVENT, $HANDLER)",
      code "$TARGET.removeEventListener($EVENT, $HANDLER, $$$OPTS)",
      text "(?P<TARGET>[\\w$][\\w$.\\[\\]]*)\\s*\\.\\s*removeEventListener\\s*\\(\\s*(?P<EVENT>'[^']*'|\\\"[^\\\"]*\\\"|`[^`]*`|[\\w$.]+)\\s*,\\s*(?P<HANDLER>[\\w$][\\w$.]*)"]
  contexts := everywhere

def jsObserver : RuleDraft where
  id := "js.observer"
  language := "javascript"
  kind := "observer"
  category := "event-listeners"
  severity := "warning"
  anchors := ["Observer"]
  summary := "DOM observer created without disconnect()"
  remediation := some
    "Call observer.disconnect() when the observed element goes away."
  acquire :=
    [code "const $O = new ResizeObserver($$$ARGS)",
      code "let $O = new ResizeObserver($$$ARGS)",
      code "var $O = new ResizeObserver($$$ARGS)",
      code "$O = new ResizeObserver($$$ARGS)",
      code "const $O = new MutationObserver($$$ARGS)",
      code "let $O = new MutationObserver($$$ARGS)",
      code "var $O = new MutationObserver($$$ARGS)",
      code "$O = new MutationObserver($$$ARGS)",
      code "const $O = new IntersectionObserver($$$ARGS)",
      code "let $O = new IntersectionObserver($$$ARGS)",
      code "var $O = new IntersectionObserver($$$ARGS)",
      code "$O = new IntersectionObserver($$$ARGS)",
      code "const $O = new PerformanceObserver($$$ARGS)",
      code "let $O = new PerformanceObserver($$$ARGS)",
      code "var $O = new PerformanceObserver($$$ARGS)",
      code "$O = new PerformanceObserver($$$ARGS)",
      text "(?:\\b(?:const|let|var)\\s+)?(?P<O>[\\w$][\\w$.\\[\\]]*)\\s*=\\s*new\\s+(?:Resize|Mutation|Intersection|Performance)Observer\\s*\\("]
  cleanup :=
    [code "$O.disconnect()",
      code "$O?.disconnect()",
      text "(?P<O>[\\w$][\\w$.\\[\\]]*)\\s*\\??\\.\\s*disconnect\\s*\\(\\s*\\)"]
  contexts := everywhere

def jsSubscription : RuleDraft where
  id := "js.subscription"
  language := "javascript"
  kind := "subscription"
  category := "async-resources"
  severity := "warning"
  anchors := [".subscribe("]
  summary := "Observable subscription that is never unsubscribed"
  remediation := some
    "Store the Subscription and call unsubscribe() in the teardown callback."
  acquire :=
    [code "const $S = $SOURCE.subscribe($$$ARGS)",
      code "let $S = $SOURCE.subscribe($$$ARGS)",
      code "var $S = $SOURCE.subscribe($$$ARGS)",
      code "$S = $SOURCE.subscribe($$$ARGS)",
      text "(?:\\b(?:const|let|var)\\s+)?(?P<S>[\\w$][\\w$.\\[\\]]*)\\s*=\\s*[^;\\n]*?\\.subscribe\\s*\\("]
  cleanup :=
    [code "$S.unsubscribe()",
      code "$S?.unsubscribe()",
      text "(?P<S>[\\w$][\\w$.\\[\\]]*)\\s*\\??\\.\\s*unsubscribe\\s*\\(\\s*\\)"]
  contexts := everywhere

def jsSocket : RuleDraft where
  id := "js.socket"
  language := "javascript"
  kind := "socket"
  category := "io-handles"
  severity := "warning"
  anchors := ["WebSocket", "EventSource"]
  summary := "WebSocket or EventSource opened without close()"
  remediation := some
    "Close the connection when the owning component or request finishes."
  acquire :=
    [code "const $WS = new WebSocket($$$ARGS)",
      code "let $WS = new WebSocket($$$ARGS)",
      code "var $WS = new WebSocket($$$ARGS)",
      code "$WS = new WebSocket($$$ARGS)",
      code "const $WS = new EventSource($$$ARGS)",
      code "let $WS = new EventSource($$$ARGS)",
      code "var $WS = new EventSource($$$ARGS)",
      code "$WS = new EventSource($$$ARGS)",
      text "(?:\\b(?:const|let|var)\\s+)?(?P<WS>[\\w$][\\w$.\\[\\]]*)\\s*=\\s*new\\s+(?:WebSocket|EventSource)\\s*\\("]
  cleanup :=
    [code "$WS.close($$$ARGS)",
      code "$WS?.close($$$ARGS)",
      text "(?P<WS>[\\w$][\\w$.\\[\\]]*)\\s*\\??\\.\\s*close\\s*\\("]
  contexts := everywhere

def jsFsOpen : RuleDraft where
  id := "js.fs.open"
  language := "javascript"
  kind := "file_handle"
  category := "io-handles"
  severity := "warning"
  anchors := ["openSync"]
  summary := "fs.openSync descriptor never closed"
  remediation := some
    "Close the descriptor with fs.closeSync(fd) in a finally block."
  acquire :=
    [code "const $FD = fs.openSync($$$ARGS)",
      code "let $FD = fs.openSync($$$ARGS)",
      code "var $FD = fs.openSync($$$ARGS)",
      code "$FD = fs.openSync($$$ARGS)",
      text "(?:\\b(?:const|let|var)\\s+)?(?P<FD>[\\w$][\\w$.\\[\\]]*)\\s*=\\s*fs\\.openSync\\s*\\("]
  cleanup :=
    [codeOrText "fs.closeSync($FD)"
        "\\bfs\\.closeSync\\s*\\(\\s*(?P<FD>[\\w$][\\w$.\\[\\]]*)\\s*\\)"]
  contexts := everywhere

/-! ## Python -/

def pyFileOpen : RuleDraft where
  id := "py.file.open"
  language := "python"
  kind := "file_handle"
  category := "io-handles"
  severity := "warning"
  anchors := ["open("]
  summary := "File opened without close() or a with block"
  remediation := some
    "Use `with open(...) as f:` or close the file in a finally block."
  acquire :=
    [code "$F = open($$$ARGS)",
      code "open($$$ARGS)",
      text "(?m)^[ \\t]*(?P<F>[\\w.]+)\\s*=\\s*(?:io\\.)?open\\s*\\(",
      text "(?:^|[^\\w.])open\\s*\\("]
  cleanup :=
    [codeOrText "$F.close()"
        "(?P<F>[\\w.]+)\\.close\\s*\\(\\s*\\)"]
  contexts := everywhere

def pySocket : RuleDraft where
  id := "py.socket"
  language := "python"
  kind := "socket_handle"
  category := "io-handles"
  severity := "warning"
  anchors := ["socket"]
  summary := "Socket created without close()"
  remediation := some
    "Use the socket as a context manager or close it in a finally block."
  acquire :=
    [codeOrText "$S = socket.socket($$$ARGS)"
        "(?m)^[ \\t]*(?P<S>[\\w.]+)\\s*=\\s*@\x7bsocket.socket\x7d\\s*\\(",
      codeOrText "$S = socket.create_connection($$$ARGS)"
        "(?m)^[ \\t]*(?P<S>[\\w.]+)\\s*=\\s*@\x7bsocket.create_connection\x7d\\s*\\("]
  cleanup :=
    [codeOrText "$S.close()"
        "(?P<S>[\\w.]+)\\.close\\s*\\(\\s*\\)"]
  contexts := everywhere

def pyPopen : RuleDraft where
  id := "py.popen"
  language := "python"
  kind := "popen_handle"
  category := "processes"
  severity := "warning"
  anchors := ["Popen", "popen"]
  summary := "Subprocess or pipe opened without wait(), communicate(), terminate(), kill() or close()"
  remediation := some
    "Reap the child with wait() or communicate(), or use it as a context manager."
  acquire :=
    [code "$P = subprocess.Popen($$$ARGS)",
      code "$P = Popen($$$ARGS)",
      code "$P = os.popen($$$ARGS)",
      text "(?m)^[ \\t]*(?P<P>[\\w.]+)\\s*=\\s*(?:@\x7b*.Popen\x7d|@\x7b*.popen\x7d)\\s*\\("]
  cleanup :=
    [code "$P.wait($$$ARGS)",
      code "$P.communicate($$$ARGS)",
      code "$P.terminate()",
      code "$P.kill()",
      code "$P.close()",
      text "(?P<P>[\\w.]+)\\.(?:wait|communicate|terminate|kill|close)\\s*\\("]
  contexts := everywhere

def pyAsyncioTask : RuleDraft where
  id := "py.asyncio.task"
  language := "python"
  kind := "asyncio_task"
  category := "async-resources"
  severity := "warning"
  anchors := ["create_task", "ensure_future"]
  summary := "asyncio task neither awaited nor cancelled"
  remediation := some
    "Await the task, cancel it, or keep it in a TaskGroup."
  acquire :=
    [code "$T = asyncio.create_task($$$ARGS)",
      code "$T = asyncio.ensure_future($$$ARGS)",
      code "asyncio.create_task($$$ARGS)",
      code "asyncio.ensure_future($$$ARGS)",
      text "(?m)^[ \\t]*(?P<T>[\\w.]+)\\s*=\\s*asyncio\\.(?:create_task|ensure_future)\\s*\\(",
      text "\\basyncio\\.(?:create_task|ensure_future)\\s*\\("]
  cleanup :=
    [code "await $T",
      code "$T.cancel()",
      text "\\bawait\\s+(?P<T>[\\w.]+)\\s*(?:$|[)\\],;#\\n])",
      text "(?P<T>[\\w.]+)\\.cancel\\s*\\(\\s*\\)"]
  contexts := everywhere

def pyConnect : RuleDraft where
  id := "py.connect"
  language := "python"
  kind := "socket_handle"
  category := "io-handles"
  severity := "warning"
  anchors := ["connect"]
  summary := "Connection opened without close()"
  remediation := some
    "Close the connection in a finally block or manage it with contextlib.closing()."
  acquire :=
    [code "$C = $M.connect($$$ARGS)",
      code "$C = connect($$$ARGS)",
      text "(?m)^[ \\t]*(?P<C>[\\w.]+)\\s*=\\s*@\x7b*.connect\x7d\\s*\\("]
  cleanup :=
    [codeOrText "$C.close()"
        "(?P<C>[\\w.]+)\\.close\\s*\\(\\s*\\)"]
  contexts := everywhere

/-! ## Go -/

def goContextCancel : RuleDraft where
  id := "go.context.cancel"
  language := "go"
  kind := "context_cancel"
  category := "async-resources"
  severity := "critical"
  anchors := ["context.With"]
  summary := "context cancel function is never called"
  remediation := some
    "Call the cancel function, usually with `defer cancel()` right after creating the context."
  acquire :=
    [code "$CTX, $CANCEL := context.WithCancel($$$ARGS)",
      code "$CTX, $CANCEL = context.WithCancel($$$ARGS)",
      code "$CTX, $CANCEL := context.WithTimeout($$$ARGS)",
      code "$CTX, $CANCEL = context.WithTimeout($$$ARGS)",
      code "$CTX, $CANCEL := context.WithDeadline($$$ARGS)",
      code "$CTX, $CANCEL = context.WithDeadline($$$ARGS)",
      text "(?P<CTX>\\w+)\\s*,\\s*(?P<CANCEL>\\w+)\\s*:?=\\s*context\\.With(?:Cancel|Timeout|Deadline)\\s*\\("]
  cleanup :=
    [codeOrText "$CANCEL()"
        "\\b(?P<CANCEL>\\w+)\\s*\\(\\s*\\)"]
  contexts := everywhere

def goTimeTicker : RuleDraft where
  id := "go.time.ticker"
  language := "go"
  kind := "timer"
  category := "async-resources"
  severity := "critical"
  anchors := ["NewTicker"]
  summary := "time.Ticker is never stopped"
  remediation := some
    "Call ticker.Stop(), usually deferred right after NewTicker."
  acquire :=
    [code "$T := time.NewTicker($$$ARGS)",
      code "$T = time.NewTicker($$$ARGS)",
      text "(?P<T>[\\w.]+)\\s*:?=\\s*time\\.NewTicker\\s*\\("]
  cleanup :=
    [codeOrText "$T.Stop()"
        "(?P<T>[\\w.]+)\\.Stop\\s*\\(\\s*\\)"]
  contexts := everywhere

def goTimeTimer : RuleDraft where
  id := "go.time.timer"
  language := "go"
  kind := "timer"
  category := "async-resources"
  severity := "warning"
  anchors := ["NewTimer"]
  summary := "time.Timer is never stopped"
  remediation := some
    "Stop the timer when the surrounding operation completes early."
  acquire :=
    [code "$T := time.NewTimer($$$ARGS)",
      code "$T = time.NewTimer($$$ARGS)",
      text "(?P<T>[\\w.]+)\\s*:?=\\s*time\\.NewTimer\\s*\\("]
  cleanup :=
    [codeOrText "$T.Stop()"
        "(?P<T>[\\w.]+)\\.Stop\\s*\\(\\s*\\)"]
  contexts := everywhere

def goOsFile : RuleDraft where
  id := "go.os.file"
  language := "go"
  kind := "file_handle"
  category := "io-handles"
  severity := "warning"
  anchors := ["os.Open", "os.Create"]
  summary := "os.File is never closed"
  remediation := some
    "Defer f.Close() right after the error check."
  acquire :=
    [code "$F, $ERR := os.Open($$$ARGS)",
      code "$F, $ERR = os.Open($$$ARGS)",
      code "$F, $ERR := os.Create($$$ARGS)",
      code "$F, $ERR = os.Create($$$ARGS)",
      code "$F, $ERR := os.OpenFile($$$ARGS)",
      code "$F, $ERR = os.OpenFile($$$ARGS)",
      text "(?P<F>\\w+)\\s*,\\s*(?P<ERR>\\w+)\\s*:?=\\s*os\\.(?:Open|Create|OpenFile)\\s*\\("]
  cleanup :=
    [codeOrText "$F.Close()"
        "\\b(?P<F>\\w+)\\.Close\\s*\\(\\s*\\)"]
  contexts := everywhere

def goHttpBody : RuleDraft where
  id := "go.http.body"
  language := "go"
  kind := "http_body"
  category := "io-handles"
  severity := "critical"
  anchors := ["http."]
  summary := "HTTP response body is never closed"
  remediation := some
    "Defer resp.Body.Close() after checking the error."
  acquire :=
    [code "$RESP, $ERR := http.Get($$$ARGS)",
      code "$RESP, $ERR = http.Get($$$ARGS)",
      code "$RESP, $ERR := http.Post($$$ARGS)",
      code "$RESP, $ERR = http.Post($$$ARGS)",
      code "$RESP, $ERR := http.Head($$$ARGS)",
      code "$RESP, $ERR = http.Head($$$ARGS)",
      code "$RESP, $ERR := http.PostForm($$$ARGS)",
      code "$RESP, $ERR = http.PostForm($$$ARGS)",
      text "(?P<RESP>\\w+)\\s*,\\s*(?P<ERR>\\w+)\\s*:?=\\s*http\\.(?:Get|Post|Head|PostForm)\\s*\\("]
  cleanup :=
    [codeOrText "$RESP.Body.Close()"
        "\\b(?P<RESP>\\w+)\\.Body\\.Close\\s*\\(\\s*\\)"]
  contexts := everywhere

/-! ## Java -/

def javaIoStream : RuleDraft where
  id := "java.io.stream"
  language := "java"
  kind := "file_handle"
  category := "io-handles"
  severity := "warning"
  anchors := ["new File", "new Buffered", "new RandomAccessFile"]
  summary := "Stream opened outside try-with-resources and never closed"
  remediation := some
    "Open the stream in a try-with-resources statement."
  acquire :=
    [code "$TYPE $S = new FileInputStream($$$ARGS);",
      code "$TYPE $S = new FileOutputStream($$$ARGS);",
      code "$TYPE $S = new FileReader($$$ARGS);",
      code "$TYPE $S = new FileWriter($$$ARGS);",
      code "$TYPE $S = new RandomAccessFile($$$ARGS);",
      code "$TYPE $S = new BufferedReader($$$ARGS);",
      code "$TYPE $S = new BufferedWriter($$$ARGS);",
      text "(?P<S>\\w+)\\s*=\\s*new\\s+(?:FileInputStream|FileOutputStream|FileReader|FileWriter|RandomAccessFile|BufferedReader|BufferedWriter)\\s*\\("]
  cleanup :=
    [codeOrText "$S.close()"
        "\\b(?P<S>\\w+)\\.close\\s*\\(\\s*\\)"]
  contexts := everywhere

def javaExecutor : RuleDraft where
  id := "java.executor"
  language := "java"
  kind := "executor"
  category := "concurrency"
  severity := "warning"
  anchors := ["Executors."]
  summary := "ExecutorService is never shut down"
  remediation := some
    "Call shutdown() (or close() on Java 19+) when the owner is disposed."
  acquire :=
    [code "$TYPE $E = Executors.newFixedThreadPool($$$ARGS);",
      code "$TYPE $E = Executors.newCachedThreadPool($$$ARGS);",
      code "$TYPE $E = Executors.newSingleThreadExecutor($$$ARGS);",
      code "$TYPE $E = Executors.newScheduledThreadPool($$$ARGS);",
      code "$TYPE $E = Executors.newWorkStealingPool($$$ARGS);",
      code "$TYPE $E = Executors.newVirtualThreadPerTaskExecutor($$$ARGS);",
      code "$E = Executors.newFixedThreadPool($$$ARGS)",
      code "$E = Executors.newCachedThreadPool($$$ARGS)",
      code "$E = Executors.newSingleThreadExecutor($$$ARGS)",
      code "$E = Executors.newScheduledThreadPool($$$ARGS)",
      code "$E = Executors.newWorkStealingPool($$$ARGS)",
      code "$E = Executors.newVirtualThreadPerTaskExecutor($$$ARGS)",
      text "(?P<E>[\\w.]+)\\s*=\\s*Executors\\.new\\w+\\s*\\("]
  cleanup :=
    [code "$E.shutdown()",
      code "$E.shutdownNow()",
      code "$E.close()",
      text "(?P<E>[\\w.]+)\\.(?:shutdown|shutdownNow|close)\\s*\\(\\s*\\)"]
  contexts := everywhere

/-! ## Swift -/

def swiftTimer : RuleDraft where
  id := "swift.timer"
  language := "swift"
  kind := "timer"
  category := "async-resources"
  severity := "critical"
  anchors := ["Timer.scheduledTimer"]
  summary := "Scheduled Timer is never invalidated"
  remediation := some
    "Call timer.invalidate() in deinit or the matching disappear callback."
  acquire :=
    [code "let $T = Timer.scheduledTimer($$$ARGS)",
      code "var $T = Timer.scheduledTimer($$$ARGS)",
      code "$T = Timer.scheduledTimer($$$ARGS)",
      text "(?:\\b(?:let|var)\\s+)?(?P<T>[\\w.]+)\\s*=\\s*Timer\\.scheduledTimer\\s*\\("]
  cleanup :=
    [code "$T.invalidate()",
      code "$T?.invalidate()",
      text "(?P<T>[\\w.]+)\\s*\\??\\.\\s*invalidate\\s*\\(\\s*\\)"]
  contexts := everywhere

def swiftNotificationObserver : RuleDraft where
  id := "swift.notification.observer"
  language := "swift"
  kind := "listener"
  category := "event-listeners"
  severity := "warning"
  anchors := ["addObserver"]
  summary := "NotificationCenter block observer is never removed"
  remediation := some
    "Keep the returned token and pass it to removeObserver(_:) in deinit."
  acquire :=
    [code "let $O = NotificationCenter.default.addObserver($$$ARGS)",
      code "$O = NotificationCenter.default.addObserver($$$ARGS)",
      text "(?:\\b(?:let|var)\\s+)?(?P<O>[\\w.]+)\\s*=\\s*NotificationCenter\\.default\\.addObserver\\s*\\("]
  cleanup :=
    [code "NotificationCenter.default.removeObserver($O)",
      text "NotificationCenter\\.default\\.removeObserver\\s*\\(\\s*(?P<O>[\\w.]+)\\s*\\)"]
  contexts := everywhere

/-! ## C and C++ -/

def cppStdioFopen : RuleDraft where
  id := "cpp.stdio.fopen"
  language := "cpp"
  kind := "file_handle"
  category := "io-handles"
  severity := "critical"
  anchors := ["fopen"]
  summary := "FILE* opened with fopen is never closed"
  remediation := some
    "fclose() the handle on every path or wrap it in a RAII type."
  acquire :=
    [code "$F = fopen($$$ARGS)",
      code "FILE *$F = fopen($$$ARGS);",
      text "(?P<F>[\\w.>-]+)\\s*=\\s*fopen\\s*\\("]
  cleanup :=
    [codeOrText "fclose($F)"
        "\\bfclose\\s*\\(\\s*(?P<F>[\\w.>-]+)\\s*\\)"]
  contexts := everywhere

def cppHeapMalloc : RuleDraft where
  id := "cpp.heap.malloc"
  language := "cpp"
  kind := "memory"
  category := "memory"
  severity := "warning"
  anchors := ["alloc("]
  summary := "malloc/calloc allocation is never freed"
  remediation := some
    "free() the block on every path or use a smart pointer."
  acquire :=
    [code "$P = malloc($$$ARGS)",
      code "$P = calloc($$$ARGS)",
      text "(?P<P>[\\w.>-]+)\\s*=\\s*(?:\\([^()]*\\)\\s*)?(?:malloc|calloc)\\s*\\("]
  cleanup :=
    [codeOrText "free($P)"
        "\\bfree\\s*\\(\\s*(?P<P>[\\w.>-]+)\\s*\\)"]
  contexts := everywhere

/-! ## Ruby -/

def rubyFileOpen : RuleDraft where
  id := "ruby.file.open"
  language := "ruby"
  kind := "file_handle"
  category := "io-handles"
  severity := "warning"
  anchors := ["File.open"]
  summary := "File.open without a block and without close"
  remediation := some
    "Pass a block to File.open so the file is closed automatically."
  acquire :=
    [code "$F = File.open($$$ARGS)",
      text "(?m)^[ \\t]*(?P<F>@?\\w+)\\s*=\\s*File\\.open\\b"]
  cleanup :=
    [codeOrText "$F.close"
        "(?P<F>@?\\w+)\\.close\\b"]
  contexts := everywhere

def rules : List RuleDraft :=
  [jsTimerInterval, jsListenerDom, jsObserver, jsSubscription, jsSocket, jsFsOpen, pyFileOpen,
    pySocket, pyPopen, pyAsyncioTask, pyConnect, goContextCancel, goTimeTicker, goTimeTimer,
    goOsFile, goHttpBody, javaIoStream, javaExecutor, swiftTimer, swiftNotificationObserver,
    cppStdioFopen, cppHeapMalloc, rubyFileOpen]

def document : RuleDocument where
  origin := "builtin"
  lifecycle := some lifecycle
  entries := rules.map fun d => { fallbackId := d.id, draft := .ok d }

end LeakScan.Builtin
