/-!
# Standard libraries

The names that belong to a language itself and lead to no file of a project and to no package.
-/

namespace CodeAtlas.Standard

/-- The modules of Python. -/
def pythonModules : List String :=
  ["__future__", "_thread", "abc", "argparse", "array", "ast", "asyncio", "atexit", "base64",
    "bdb", "binascii", "bisect", "builtins", "bz2", "calendar", "cmath", "cmd", "code",
    "codecs", "collections", "colorsys", "compileall", "concurrent", "configparser",
    "contextlib", "contextvars", "copy", "copyreg", "cProfile", "csv", "ctypes", "curses",
    "dataclasses", "datetime", "dbm", "decimal", "difflib", "dis", "doctest", "email",
    "encodings", "ensurepip", "enum", "errno", "faulthandler", "fcntl", "filecmp", "fileinput",
    "fnmatch", "fractions", "ftplib", "functools", "gc", "getopt", "getpass", "gettext",
    "glob", "graphlib", "grp", "gzip", "hashlib", "heapq", "hmac", "html", "http", "imaplib",
    "importlib", "inspect", "io", "ipaddress", "itertools", "json", "keyword", "linecache",
    "locale", "logging", "lzma", "mailbox", "marshal", "math", "mimetypes", "mmap",
    "multiprocessing", "netrc", "numbers", "operator", "optparse", "os", "pathlib", "pdb",
    "pickle", "pkgutil", "platform", "plistlib", "poplib", "posix", "pprint", "profile",
    "pstats", "pty", "pwd", "py_compile", "pyclbr", "pydoc", "queue", "quopri", "random", "re",
    "readline", "reprlib", "resource", "rlcompleter", "runpy", "sched", "secrets", "select",
    "selectors", "shelve", "shlex", "shutil", "signal", "site", "smtplib", "socket",
    "socketserver", "sqlite3", "ssl", "stat", "statistics", "string", "stringprep", "struct",
    "subprocess", "symtable", "sys", "sysconfig", "syslog", "tabnanny", "tarfile", "tempfile",
    "termios", "textwrap", "threading", "time", "timeit", "tkinter", "token", "tokenize",
    "tomllib", "trace", "traceback", "tracemalloc", "tty", "turtle", "types", "typing",
    "unicodedata", "unittest", "urllib", "uuid", "venv", "warnings", "wave", "weakref",
    "webbrowser", "winreg", "wsgiref", "xml", "xmlrpc", "zipapp", "zipfile", "zipimport",
    "zlib", "zoneinfo"]

/-- The crates that come with Rust. -/
def rustCrates : List String :=
  ["std", "core", "alloc", "proc_macro", "test"]

/-- The modules that come with the runtime of JavaScript. -/
def scriptModules : List String :=
  ["assert", "async_hooks", "buffer", "child_process", "cluster", "console", "constants",
    "crypto", "dgram", "diagnostics_channel", "dns", "domain", "events", "fs", "http", "http2",
    "https", "inspector", "module", "net", "os", "path", "perf_hooks", "process", "punycode",
    "querystring", "readline", "repl", "stream", "string_decoder", "timers", "tls",
    "trace_events", "tty", "url", "util", "v8", "vm", "wasi", "worker_threads", "zlib"]

/-- The beginnings of the packages of Java. -/
def javaBeginnings : List String :=
  ["java.", "javax.", "jdk.", "sun.", "com.sun."]

/-- The headers of C and C++, and common ones of the system. -/
def headers : List String :=
  ["assert.h", "complex.h", "ctype.h", "errno.h", "fenv.h", "float.h", "inttypes.h",
    "iso646.h", "limits.h", "locale.h", "math.h", "setjmp.h", "signal.h", "stdalign.h",
    "stdarg.h", "stdatomic.h", "stdbool.h", "stddef.h", "stdint.h", "stdio.h", "stdlib.h",
    "stdnoreturn.h", "string.h", "tgmath.h", "threads.h", "time.h", "uchar.h", "wchar.h",
    "wctype.h", "unistd.h", "fcntl.h", "pthread.h", "dirent.h", "dlfcn.h", "poll.h", "sched.h",
    "semaphore.h", "termios.h", "netdb.h", "strings.h", "syslog.h", "regex.h", "getopt.h",
    "malloc.h", "memory.h", "algorithm", "any", "array", "atomic", "bitset", "cassert",
    "cctype", "cerrno", "cfloat", "charconv", "chrono", "cinttypes", "climits", "clocale",
    "cmath", "codecvt", "compare", "complex", "concepts", "condition_variable", "coroutine",
    "csetjmp", "csignal", "cstdarg", "cstddef", "cstdint", "cstdio", "cstdlib", "cstring",
    "ctime", "cwchar", "cwctype", "deque", "exception", "execution", "expected", "filesystem",
    "format", "forward_list", "fstream", "functional", "future", "initializer_list", "iomanip",
    "ios", "iosfwd", "iostream", "istream", "iterator", "limits", "list", "locale", "map",
    "memory", "memory_resource", "mutex", "new", "numbers", "numeric", "optional", "ostream",
    "print", "queue", "random", "ranges", "ratio", "regex", "scoped_allocator", "set",
    "shared_mutex", "span", "sstream", "stack", "stdexcept", "stop_token", "streambuf",
    "string", "string_view", "system_error", "thread", "tuple", "type_traits", "typeindex",
    "typeinfo", "unordered_map", "unordered_set", "utility", "valarray", "variant", "vector",
    "version"]

/-- The directories of headers of the system. -/
def headerDirectories : List String :=
  ["sys/", "bits/", "arpa/", "netinet/", "linux/", "asm/"]

/-- Whether a name is that of a module of Python. -/
def isPython (name : String) : Bool := pythonModules.contains name

def isRust (name : String) : Bool := rustCrates.contains name

/-- Whether a specifier leads to a module of the runtime, by a scheme of its own or by the part
before its first slash. -/
def isScript (specifier : String) : Bool :=
  specifier.startsWith "node:" ||
    scriptModules.contains (String.ofList (specifier.toList.takeWhile (· ≠ '/')))

def isJava (name : String) : Bool := javaBeginnings.any fun beginning => name.startsWith beginning

def isHeader (header : String) : Bool :=
  headers.contains header || headerDirectories.any fun directory => header.startsWith directory

/-- Packages of Go have no point before their first slash. -/
def isGo (path : String) : Bool := !(path.toList.takeWhile (· ≠ '/')).contains '.'

end CodeAtlas.Standard
